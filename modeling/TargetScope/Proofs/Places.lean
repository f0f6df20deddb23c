import TargetScope.Proofs.Runs

/-!
# Places in a text

A line and a column lead to a place in a text.

* A word stands in its line at its column, in front of any comment (`Word.standsIn_of_mem_words`).
* A text can be cut in front of each of its lines and behind it (`exists_cut`): what is in front
  ends with a line break and has the lines before as its own, and what is behind begins with one.
  The lines up to the cut stay as they are, whatever is put in the place of the rest
  (`lines_append`, `exists_lines_of_cut`).
-/

namespace TargetScope

namespace Text

/-! ## Words in their line -/

/-- The word stands in the line at its column: it has a character, no blank, and no number sign in
it or before it. -/
structure Word.StandsIn (w : Word) (line : List Char) : Prop where
  /-- The word is one. -/
  isPlain : IsPlain w.text
  /-- The column counts the characters up to the first of the word. -/
  exists_eq : ∃ before after, line = before ++ w.text.toList ++ after ∧
    w.column = before.length + 1 ∧ '#' ∉ before

section Words

variable {w : Word} {line : List Char}

lemma Word.StandsIn.ne_nil (h : w.StandsIn line) : line ≠ [] := by
  obtain ⟨before, after, rfl, -⟩ := h.exists_eq
  simp [h.isPlain.ne_nil]

/-- Each word of a line stands in it. -/
lemma Word.standsIn_of_mem_words (h : w ∈ words line) : w.StandsIn line := by
  obtain ⟨hplain, before, after, heq, hcolumn, hcomment, -, -⟩ := mem_words_iff.1 h
  exact ⟨hplain, before, after, heq, hcolumn, hcomment⟩

end Words

/-! ## Texts that are cut between lines -/

/-- Nothing follows, or a line break. -/
def Stops (rest : List Char) : Prop :=
  ∀ c ∈ rest.head?, isLineBreak c = true

/-- The last line has come to its end. -/
def EndsInBreak (text : List Char) : Prop :=
  ∀ c ∈ text.getLast?, isLineBreak c = true

section Lines

variable {c : Char} {text before line rest : List Char} {ls : List (List Char)}

lemma lines_eq_nil_iff : lines text = [] ↔ text = [] := by
  fun_cases lines text with
  | case1 => simp
  | case2 rest => simp
  | case3 c rest _ hc => simp
  | case4 c rest _ hc => cases lines rest <;> simp [prependChar]

/-- The first character of a text, if it does not make one line break with the second. -/
lemma lines_cons (h : c = '\r' → rest.head? ≠ some '\n') :
    lines (c :: rest) = if isLineBreak c then [] :: lines rest else prependChar c (lines rest) := by
  rw [lines.eq_3]
  rintro rest' rfl rfl
  exact h rfl rfl

lemma lines_cons_of_not_isLineBreak (h : isLineBreak c = false) (rest : List Char) :
    lines (c :: rest) = prependChar c (lines rest) := by
  rw [lines_cons, if_neg (by simp [h])]
  rintro rfl
  exact absurd h (by decide)

lemma prependChar_append (h : ls ≠ []) (more : List (List Char)) :
    prependChar c (ls ++ more) = prependChar c ls ++ more := by
  cases ls with
  | nil => exact absurd rfl h
  | cons first others => rfl

lemma EndsInBreak.tail (h : EndsInBreak (c :: text)) : EndsInBreak text := by
  cases text with
  | nil => simp [EndsInBreak]
  | cons d text => simpa [EndsInBreak] using h

lemma EndsInBreak.cons (h : EndsInBreak text) (hc : text = [] → isLineBreak c = true) :
    EndsInBreak (c :: text) := by
  cases text with
  | nil => simpa [EndsInBreak] using hc rfl
  | cons d text => simpa [EndsInBreak] using h

/-- Behind a line break a new line begins. -/
lemma lines_append (h : EndsInBreak before) (hrest : rest.head? ≠ some '\n') :
    lines (before ++ rest) = lines before ++ lines rest := by
  fun_induction lines before with
  | case1 => rfl
  | case2 text ih => simp [lines, ih h.tail.tail]
  | case3 c text hr hc ih =>
    rw [List.cons_append, lines_cons, if_pos hc, ih h.tail, List.cons_append]
    rintro rfl
    cases text with
    | nil => exact hrest
    | cons d text => simpa using hr text
  | case4 c text hr hc ih =>
    have hne : lines text ≠ [] := by
      rw [ne_eq, lines_eq_nil_iff]
      rintro rfl
      exact hc (h c rfl)
    rw [List.cons_append, lines_cons_of_not_isLineBreak (Bool.not_eq_true _ ▸ hc), ih h.tail,
      prependChar_append hne]

lemma exists_lines_of_stops (hne : rest ≠ []) (hrest : Stops rest) :
    ∃ more, lines rest = [] :: more := by
  fun_cases lines rest with
  | case1 => exact absurd rfl hne
  | case2 rest => exact ⟨_, rfl⟩
  | case3 c rest => exact ⟨_, rfl⟩
  | case4 c rest _ hc => exact absurd (hrest c rfl) hc

/-- A line goes up to what follows it. -/
lemma exists_lines_append (hne : line ≠ [] ∨ rest ≠ []) (hline : ∀ c ∈ line, isLineBreak c = false)
    (hrest : Stops rest) : ∃ more, lines (line ++ rest) = line :: more := by
  induction line with
  | nil => exact exists_lines_of_stops (hne.resolve_left (not_not.2 rfl)) hrest
  | cons c line ih =>
    rw [List.cons_append, lines_cons_of_not_isLineBreak (hline c (by simp))]
    by_cases hend : line = [] ∧ rest = []
    · obtain ⟨rfl, rfl⟩ := hend
      exact ⟨[], rfl⟩
    · rw [not_and_or] at hend
      obtain ⟨more, hmore⟩ := ih hend fun d hd => hline d (List.mem_cons_of_mem _ hd)
      exact ⟨more, by rw [hmore, prependChar]⟩

/-- A text is cut in front of a line and behind it. -/
lemma exists_cut {k : Nat} (h : (lines text)[k]? = some line) :
    ∃ before after, text = before ++ line ++ after ∧ lines before = (lines text).take k ∧
      EndsInBreak before ∧ Stops after := by
  have hcr : isLineBreak '\r' = true := by decide
  have hlf : isLineBreak '\n' = true := by decide
  fun_induction lines text generalizing k line with
  | case1 => simp at h
  | case2 rest ih =>
    cases k with
    | zero =>
      obtain rfl := Option.some.inj h
      exact ⟨[], '\r' :: '\n' :: rest, rfl, rfl, by simp [EndsInBreak], by simp [Stops, hcr]⟩
    | succ k =>
      obtain ⟨before, after, rfl, hlines, hends, hstops⟩ := ih (by simpa using h)
      exact ⟨'\r' :: '\n' :: before, after, rfl, by simp [lines, hlines],
        (hends.cons fun _ => hlf).cons (by simp), hstops⟩
  | case3 c rest hr hc ih =>
    cases k with
    | zero =>
      obtain rfl := Option.some.inj h
      exact ⟨[], c :: rest, rfl, rfl, by simp [EndsInBreak], by simpa [Stops] using hc⟩
    | succ k =>
      obtain ⟨before, after, rfl, hlines, hends, hstops⟩ := ih (by simpa using h)
      refine ⟨c :: before, after, rfl, ?_, hends.cons fun _ => hc, hstops⟩
      rw [lines_cons, if_pos hc, hlines, List.take_succ_cons]
      rintro rfl hhead
      obtain ⟨others, rfl⟩ := List.head?_eq_some_iff.1 hhead
      exact hr _ rfl rfl
  | case4 c rest hr hc ih =>
    rw [Bool.not_eq_true] at hc
    cases hrest : lines rest with
    | nil =>
      -- the text is this one character
      obtain rfl := lines_eq_nil_iff.1 hrest
      obtain ⟨rfl, rfl⟩ : k = 0 ∧ [c] = line := by
        simpa [lines, prependChar, List.getElem?_singleton] using h
      exact ⟨[], [], by simp, rfl, by simp [EndsInBreak], by simp [Stops]⟩
    | cons first others =>
      rw [hrest, prependChar] at h
      cases k with
      | zero =>
        obtain rfl := Option.some.inj h
        have hfirst : (lines rest)[0]? = some first := by
          rw [hrest]
          rfl
        obtain ⟨before, after, heq, hlines, -, hstops⟩ := ih hfirst
        obtain rfl : before = [] := lines_eq_nil_iff.1 (by simpa using hlines)
        exact ⟨[], after, by simp [heq], rfl, by simp [EndsInBreak], hstops⟩
      | succ k =>
        have hline : (lines rest)[k + 1]? = some line := by
          rw [hrest]
          simpa using h
        obtain ⟨before, after, rfl, hlines, hends, hstops⟩ := ih hline
        rw [hrest, List.take_succ_cons] at hlines
        have hne : before ≠ [] := by
          rintro rfl
          simp [lines] at hlines
        refine ⟨c :: before, after, rfl, ?_, hends.cons fun hnil => absurd hnil hne, hstops⟩
        rw [lines_cons_of_not_isLineBreak hc, hlines, prependChar, prependChar, List.take_succ_cons]

/-- A line behind a line break stays what it is, whatever follows it on further lines. -/
lemma exists_lines_of_cut (hbefore : EndsInBreak before) (hne : line ≠ [])
    (hline : ∀ c ∈ line, isLineBreak c = false) (hrest : Stops rest) :
    ∃ more, lines (before ++ line ++ rest) = lines before ++ line :: more := by
  have hhead : (line ++ rest).head? ≠ some '\n' := by
    obtain ⟨c, line, rfl⟩ := List.exists_cons_of_ne_nil hne
    intro hc
    obtain rfl := Option.some.inj hc
    exact absurd (hline '\n' (by simp)) (by decide)
  obtain ⟨more, hmore⟩ := exists_lines_append (Or.inl hne) hline hrest
  exact ⟨more, by rw [List.append_assoc, lines_append hbefore hhead, hmore]⟩

end Lines

end Text

end TargetScope
