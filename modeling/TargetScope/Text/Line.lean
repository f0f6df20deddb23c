import TargetScope.Text.CodeRange

/-!
# Lines

A text is cut into lines at its line breaks.  A carriage return followed by a line feed is one
break; every other line break stands alone.  A break at the very end of the text opens no further
line, so the empty text has no line at all.
-/

namespace TargetScope.Text

/-- The code points of the line breaks: the line feed, the vertical tab, the form feed, the
carriage return, three information separators, the next line, and the two separators of
Unicode. -/
def lineBreaks : List CodeRange :=
  [(0xA, 0xD), (0x1C, 0x1E), (0x85, 0x85), (0x2028, 0x2029)]

/-- A line break. -/
def isLineBreak (c : Char) : Bool :=
  inRanges lineBreaks c

/-- Puts a character at the front of the first of some lines. -/
def prependChar (c : Char) : List (List Char) → List (List Char)
  | [] => [[c]]
  | line :: rest => (c :: line) :: rest

/-- The lines of a text, without their line breaks. -/
def lines : List Char → List (List Char)
  | [] => []
  | '\r' :: '\n' :: rest => [] :: lines rest
  | c :: rest => if isLineBreak c then [] :: lines rest else prependChar c (lines rest)

/-- Up to a line feed a text without line breaks is one line. -/
theorem lines_append_newline {line : List Char} (h : ∀ c ∈ line, isLineBreak c = false)
    (rest : List Char) : lines (line ++ '\n' :: rest) = line :: lines rest := by
  induction line with
  | nil => simp [lines, show isLineBreak '\n' = true by decide]
  | cons c line ih =>
    have hc : isLineBreak c = false := h c (by simp)
    have hr : c ≠ '\r' := by
      rintro rfl
      exact absurd hc (by decide)
    rw [List.cons_append, lines.eq_3]
    · simp [hc, ih fun d hd => h d (by simp [hd]), prependChar]
    · exact fun _ hcr => absurd hcr hr

/-- No line holds a line break. -/
theorem isLineBreak_of_mem_lines {text line : List Char} {c : Char} (h : line ∈ lines text)
    (hc : c ∈ line) : isLineBreak c = false := by
  fun_induction lines text generalizing line with
  | case1 => simp at h
  | case2 rest ih =>
    rcases List.mem_cons.1 h with rfl | h
    · simp at hc
    · exact ih h hc
  | case3 d rest _ hd ih =>
    rcases List.mem_cons.1 h with rfl | h
    · simp at hc
    · exact ih h hc
  | case4 d rest _ hd ih =>
    cases hl : lines rest with
    | nil =>
      simp only [hl, prependChar, List.mem_singleton] at h
      subst h
      simp only [List.mem_singleton] at hc
      subst hc
      simpa using hd
    | cons first others =>
      simp only [hl, prependChar, List.mem_cons] at h
      rcases h with rfl | h
      · rcases List.mem_cons.1 hc with rfl | hc
        · simpa using hd
        · exact ih (by simp [hl]) hc
      · exact ih (by simp [hl, h]) hc

/-- The text with each carriage return, alone or followed by a line feed, turned into one line
feed. -/
def normalizeNewlines : List Char → List Char
  | [] => []
  | '\r' :: '\n' :: rest => '\n' :: normalizeNewlines rest
  | '\r' :: rest => '\n' :: normalizeNewlines rest
  | c :: rest => c :: normalizeNewlines rest

end TargetScope.Text
