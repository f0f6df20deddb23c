import TargetScope.Proofs.Scanning
import TargetScope.Proofs.Transcript

/-!
# Words and lines that are put together

A word is plain if it holds no blank and no number sign.  Plain words with single spaces between
them, behind any number of blanks, are the words of their line again (`row_indented`).  Lines
without line breaks are the lines of the text in which each of them ends in a line feed
(`lines_flatMap`), or in which a line feed stands between them (`lines_intercalate`).

A word is ordinary if it is plain and does not begin like a position.  All dotted names are ordinary
words (`isOrdinary_of_isDottedName`), since the tables of their characters have none in common with
that of the blanks.
-/

namespace TargetScope

namespace Text

/-! ## Rows of plain words -/

/-- A word that stands in a line as one: it has a character, and none of them is a blank or begins a
comment. -/
structure IsPlain (word : String) : Prop where
  /-- There is a character. -/
  ne_nil : word.toList ≠ []
  /-- No character is a blank. -/
  unbroken : ∀ c ∈ word.toList, isBlank c = false
  /-- No character is a number sign. -/
  uncommented : '#' ∉ word.toList

/-- A plain word that does not look like a position. -/
structure IsOrdinary (word : String) : Prop extends IsPlain word where
  /-- The first character is no at sign. -/
  unplaced : word.toList.head? ≠ some '@'

/-- Some words with single spaces between them. -/
def spaced (ws : List String) : List Char :=
  (" ".intercalate ws).toList

section Rows

variable {ws : List String} {indent : List Char} {c : Char}

@[simp] lemma spaced_nil : spaced [] = [] := rfl

@[simp] lemma spaced_singleton (w : String) : spaced [w] = w.toList := by
  simp [spaced]

@[simp] lemma spaced_cons_cons (w w' : String) (ws : List String) :
    spaced (w :: w' :: ws) = w.toList ++ ' ' :: spaced (w' :: ws) := by
  simp [spaced, String.toList_intercalate]

lemma mem_spaced (hc : c ∈ spaced ws) : c = ' ' ∨ ∃ w ∈ ws, c ∈ w.toList := by
  induction ws with
  | nil => simp at hc
  | cons w ws ih =>
    cases ws with
    | nil => exact Or.inr ⟨w, by simp, by simpa using hc⟩
    | cons w' ws =>
      rw [spaced_cons_cons, List.mem_append, List.mem_cons] at hc
      rcases hc with hc | rfl | hc
      · exact Or.inr ⟨w, by simp, hc⟩
      · exact Or.inl rfl
      · rcases ih hc with h | ⟨v, hv, hcv⟩
        · exact Or.inl h
        · exact Or.inr ⟨v, List.mem_cons_of_mem _ hv, hcv⟩

/-- Plain words with single spaces between them are the runs of their line. -/
lemma map_text_runsFrom_spaced (hws : ∀ w ∈ ws, IsPlain w) (column : Nat) :
    (runsFrom column (spaced ws)).map Word.text = ws := by
  -- the column of a word does not matter for its text, but it changes from word to word
  induction ws generalizing column with
  | nil => simp
  | cons w ws ih =>
    have hw := hws w (by simp)
    cases ws with
    | nil =>
      rw [spaced_singleton, runsFrom_run hw.ne_nil hw.unbroken]
      simp
    | cons w' ws =>
      rw [spaced_cons_cons, runsFrom_append_blank hw.ne_nil hw.unbroken (by decide), List.map_cons,
        ih (fun v hv => hws v (List.mem_cons_of_mem _ hv)), String.ofList_toList]

lemma runsFrom_append_of_blank (hindent : ∀ c ∈ indent, isBlank c = true) (column : Nat)
    (rest : List Char) :
    runsFrom column (indent ++ rest) = runsFrom (column + indent.length) rest := by
  induction indent generalizing column with
  | nil => rfl
  | cons c indent ih =>
    rw [List.cons_append, runsFrom_cons_of_isBlank (hindent c (by simp)),
      ih (fun d hd => hindent d (List.mem_cons_of_mem _ hd)), List.length_cons]
    congr 1
    omega

/-- Plain words with single spaces between them, behind some blanks, are the words of their line. -/
lemma row_indented (hindent : ∀ c ∈ indent, isBlank c = true) (hws : ∀ w ∈ ws, IsPlain w) :
    row (indent ++ spaced ws) = ws := by
  have hcomment : '#' ∉ indent ++ spaced ws := by
    intro hmem
    rcases List.mem_append.1 hmem with h | h
    · exact absurd (hindent _ h) (by decide)
    · rcases mem_spaced h with h | ⟨w, hw, h⟩
      · exact absurd h (by decide)
      · exact (hws w hw).uncommented h
  rw [row, words_eq, beforeComment_of_notMem hcomment, runsFrom_append_of_blank hindent,
    map_text_runsFrom_spaced hws]

end Rows

/-! ## Lines -/

section Lines

variable {c : Char} {ls : List (List Char)}

/-- Every line break is a blank. -/
lemma isBlank_of_isLineBreak (h : isLineBreak c = true) : isBlank c = true := by
  -- each range of line breaks lies in a range of blanks
  have hsub : ∀ r ∈ lineBreaks, ∃ b ∈ blanks, b.1 ≤ r.1 ∧ r.2 ≤ b.2 := by decide
  obtain ⟨r, hr, hlo, hhi⟩ := inRanges_iff.1 h
  obtain ⟨b, hb, hlo', hhi'⟩ := hsub r hr
  exact inRanges_iff.2 ⟨b, hb, hlo'.trans hlo, hhi.trans hhi'⟩

/-- There is no line break between the words of a line, nor in a plain word. -/
lemma isLineBreak_of_mem_spaced {ws : List String} (hws : ∀ w ∈ ws, IsPlain w)
    (hc : c ∈ spaced ws) : isLineBreak c = false := by
  rcases mem_spaced hc with rfl | ⟨w, hw, hcw⟩
  · decide
  · by_contra hbreak
    have hblank := isBlank_of_isLineBreak (Bool.not_eq_false _ ▸ hbreak)
    rw [(hws w hw).unbroken c hcw] at hblank
    exact Bool.false_ne_true hblank

/-- Lines that end in a line feed each. -/
lemma lines_flatMap (hls : ∀ l ∈ ls, ∀ c ∈ l, isLineBreak c = false) :
    lines (ls.flatMap (· ++ ['\n'])) = ls := by
  induction ls with
  | nil => rfl
  | cons l ls ih =>
    rw [List.flatMap_cons, List.append_assoc, List.singleton_append,
      lines_append_newline (hls l (by simp)), ih fun l' hl' => hls l' (List.mem_cons_of_mem _ hl')]

/-- A text without line breaks is one line, unless it is empty. -/
lemma lines_singleton {line : List Char} (hne : line ≠ [])
    (h : ∀ c ∈ line, isLineBreak c = false) : lines line = [line] := by
  induction line with
  | nil => exact absurd rfl hne
  | cons c line ih =>
    have hc : isLineBreak c = false := h c (by simp)
    -- a carriage return is a line break, so that the second equation of `lines` is not met
    have hr : c ≠ '\r' := by
      rintro rfl
      exact absurd hc (by decide)
    rw [lines.eq_3 _ _ (fun _ hcr => absurd hcr hr), if_neg (by simp [hc])]
    cases line with
    | nil => rfl
    | cons d line => rw [ih (by simp) fun e he => h e (List.mem_cons_of_mem _ he), prependChar]

/-- Lines with a line feed between them, none of them empty. -/
lemma lines_intercalate (hne : ∀ l ∈ ls, l ≠ [])
    (hls : ∀ l ∈ ls, ∀ c ∈ l, isLineBreak c = false) :
    lines (['\n'].intercalate ls) = ls := by
  induction ls with
  | nil => rfl
  | cons l ls ih =>
    have hl := hls l (by simp)
    cases ls with
    | nil => simpa using lines_singleton (hne l (by simp)) hl
    | cons l' ls =>
      rw [List.intercalate_cons_cons, List.append_assoc, List.singleton_append,
        lines_append_newline hl, ih (fun l hl => hne l (List.mem_cons_of_mem _ hl))
          fun l hl => hls l (List.mem_cons_of_mem _ hl)]

/-- The rows of a text do not depend on the numbers of its lines. -/
lemma rows_numberedLines (text : String) :
    rows (numberedLines text) = ((lines text.toList).map row).filter (· ≠ []) := by
  rw [rows, numberedLines, ← Function.comp_def row Prod.fst, ← List.map_map, List.zipIdx_map_fst]

end Lines

/-! ## The characters of names -/

section Names

variable {c : Char} {word : String}

/-- Two tables that have no code point in common. -/
def Apart (table table' : List CodeRange) : Prop :=
  ∀ r ∈ table, ∀ r' ∈ table', r.2 < r'.1 ∨ r'.2 < r.1

instance (table table' : List CodeRange) : Decidable (Apart table table') :=
  inferInstanceAs (Decidable (∀ r ∈ table, ∀ r' ∈ table', r.2 < r'.1 ∨ r'.2 < r.1))

lemma Apart.inRanges_eq_false {table table' : List CodeRange} (h : Apart table table')
    (hc : inRanges table c = true) : inRanges table' c = false := by
  by_contra hc'
  rw [Bool.not_eq_false] at hc'
  obtain ⟨r, hr, hlo, hhi⟩ := inRanges_iff.1 hc
  obtain ⟨r', hr', hlo', hhi'⟩ := inRanges_iff.1 hc'
  rcases h r hr r' hr' with hlt | hlt <;> omega

/-- The characters that no identifier has and that mean something in an event file: the blanks, the
number sign and the at sign. -/
def separators : List CodeRange :=
  blanks ++ [(0x23, 0x23), (0x40, 0x40)]

lemma apart_identifierStarts : Apart identifierStarts separators := by
  decide +kernel

lemma apart_identifierFollowers : Apart identifierFollowers separators := by
  decide +kernel

lemma inRanges_separators_of_isIdentifierPart (h : isIdentifierPart c = true) :
    inRanges separators c = false := by
  rw [isIdentifierPart, isIdentifierStart, Bool.or_eq_true, Bool.or_eq_true, beq_iff_eq] at h
  rcases h with (rfl | h) | h
  · decide
  · exact apart_identifierStarts.inRanges_eq_false h
  · exact apart_identifierFollowers.inRanges_eq_false h

lemma isIdentifierPart_of_mem {name : List Char} (h : isIdentifier name = true) (hc : c ∈ name) :
    isIdentifierPart c = true := by
  cases name with
  | nil => simp at hc
  | cons d rest =>
    rw [isIdentifier, Bool.and_eq_true, List.all_eq_true] at h
    rcases List.mem_cons.1 hc with rfl | hc
    · exact isIdentifierPart_of_start h.1
    · exact h.2 c hc

/-- No dotted name holds a separator. -/
lemma inRanges_separators_of_mem {name : List Char} (h : isDottedName name = true)
    (hc : c ∈ name) : inRanges separators c = false := by
  -- a dot is read as an underscore, and everything else as itself
  by_cases hdot : c = '.'
  · rw [hdot]
    decide
  · refine inRanges_separators_of_isIdentifierPart (isIdentifierPart_of_mem h ?_)
    exact List.mem_map.2 ⟨c, hc, if_neg hdot⟩

lemma not_separator (h : inRanges separators c = false) :
    isBlank c = false ∧ c ≠ '#' ∧ c ≠ '@' := by
  refine ⟨?_, ?_, ?_⟩
  · rw [separators, inRanges, List.any_append, Bool.or_eq_false_iff] at h
    exact h.1
  · rintro rfl
    exact absurd h (by decide)
  · rintro rfl
    exact absurd h (by decide)

/-- A dotted name is an ordinary word. -/
lemma isOrdinary_of_isDottedName (h : isDottedName word.toList = true) : IsOrdinary word where
  ne_nil := by
    intro hnil
    simp [hnil, isDottedName, isIdentifier] at h
  unbroken c hc := (not_separator (inRanges_separators_of_mem h hc)).1
  uncommented hc := (not_separator (inRanges_separators_of_mem h hc)).2.1 rfl
  unplaced hhead :=
    (not_separator (inRanges_separators_of_mem h (List.mem_of_head? hhead))).2.2 rfl

end Names

end Text

end TargetScope
