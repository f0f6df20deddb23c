import Mathlib.Data.List.Chain
import TargetScope.Proofs.Spacing

/-!
# The words of a line are its runs

A run of a line is a word that stands in front of any comment and goes as far as it can: there is
nothing before it or a blank, and nothing behind it, or a blank or a number sign (`Word.IsRunOf`).

No run goes over a blank.  So a text can be cut beside a blank and its two parts can be read one by
one (`runsFrom_append`); with a cut in front of a run and one behind it the run is found.
Conversely the reading goes on at a blank behind each word, so that all it finds are runs
(`isRunOf_of_mem_runsFrom`).  The words of a line are therefore exactly its runs, one after the
other, and no comment has a part in them (`words_are_runs`).
-/

namespace TargetScope

namespace Text

/-- The word is a run of the line: some characters in front of any comment, none of them a blank,
that cannot be continued on either side. -/
structure Word.IsRunOf (w : Word) (line : List Char) : Prop where
  /-- There is a character, and none is a blank or begins a comment. -/
  isPlain : IsPlain w.text
  /-- The word stands at its column, and what is beside it cannot belong to a word. -/
  exists_eq : ∃ before after, line = before ++ w.text.toList ++ after ∧
    w.column = before.length + 1 ∧ '#' ∉ before ∧ (∀ c ∈ before.getLast?, isBlank c = true) ∧
    ∀ c ∈ after.head?, isBlank c = true ∨ c = '#'

/-- In the line the word `w` comes behind the word `v`, with a gap between them that holds at least
one character, and nothing but blanks. -/
def Word.LeadsTo (line : List Char) (v w : Word) : Prop :=
  ∃ before gap after, line = before ++ v.text.toList ++ gap ++ w.text.toList ++ after ∧
    v.column = before.length + 1 ∧ w.column = v.column + v.text.toList.length + gap.length ∧
    gap ≠ [] ∧ ∀ c ∈ gap, isBlank c = true

/-- No run goes over the border between two parts of a text: there is a blank beside it, or nothing
on one of its sides. -/
def Parts (before rest : List Char) : Prop :=
  (∀ c ∈ before.getLast?, isBlank c = true) ∨ ∀ c ∈ rest.head?, isBlank c = true

section Runs

variable {w : Word} {c : Char} {column : Nat} {text before run rest line : List Char}

/-! ## Reading run by run -/

/-- A text is read blank by blank and run by run, where a run goes up to a blank or to the end. -/
@[elab_as_elim]
theorem runs_induction {motive : List Char → Prop} (nil : motive [])
    (blank : ∀ c rest, isBlank c = true → motive rest → motive (c :: rest))
    (run : ∀ run rest, run ≠ [] → (∀ c ∈ run, isBlank c = false) →
      (∀ c ∈ rest.head?, isBlank c = true) → motive rest → motive (run ++ rest))
    (text : List Char) : motive text := by
  generalize 1 = column
  fun_induction runsFrom column text with
  | case1 => exact nil
  | case2 column c rest hc ih => exact blank c rest hc ih
  | case3 column c rest hc first ih =>
    have hsplit : c :: rest = first ++ rest.dropWhile fun d => !isBlank d := by
      rw [List.cons_append, List.takeWhile_append_dropWhile]
    rw [hsplit]
    refine run first _ (by simp [first]) (fun d hd => ?_) (fun d hd => ?_) ih
    · rcases List.mem_cons.1 hd with rfl | hd
      · simpa using hc
      · simpa using List.mem_takeWhile_imp hd
    · have hnot := List.head?_dropWhile_not (fun d => !isBlank d) rest
      rw [Option.mem_def.1 hd] at hnot
      simpa using hnot

lemma Parts.of_append (run : List Char) (h : Parts (run ++ before) rest) : Parts before rest := by
  refine h.imp_left fun h c hc => h c ?_
  rw [List.getLast?_append, Option.mem_def.1 hc]
  rfl

/-- A border that no run goes over parts the runs of a text. -/
lemma runsFrom_append (h : Parts before rest) (column : Nat) :
    runsFrom column (before ++ rest) =
      runsFrom column before ++ runsFrom (column + before.length) rest := by
  induction before using runs_induction generalizing column with
  | nil => simp
  | blank c before hc ih =>
    rw [List.cons_append, runsFrom_cons_of_isBlank hc, runsFrom_cons_of_isBlank hc,
      ih (Parts.of_append [c] h), List.length_cons, Nat.add_right_comm, Nat.add_assoc]
  | run run before hne hrun hhead ih =>
    have hstop : ∀ c ∈ (before ++ rest).head?, isBlank c = true := by
      cases before with
      | cons b before => simpa using hhead
      | nil =>
        -- the run ends at the border, so that the blank is behind it
        refine h.resolve_left fun hlast => ?_
        obtain ⟨c, hc⟩ := Option.isSome_iff_exists.1 (List.getLast?_isSome.2 hne)
        have hblank := hlast c (by simpa using hc)
        simp [hrun c (List.mem_of_getLast? hc)] at hblank
    rw [List.append_assoc, runsFrom_run_append hne hrun hstop, runsFrom_run_append hne hrun hhead,
      ih (h.of_append run), List.cons_append, List.length_append, Nat.add_assoc]

/-! ## What is found -/

/-- What is found in the rest of a line without comments is a run of the line, if no run goes over
the border. -/
lemma isRunOf_of_mem_runsFrom (before : List Char) (hcomment : '#' ∉ before ++ text)
    (hborder : Parts before text) (h : w ∈ runsFrom (before.length + 1) text) :
    w.IsRunOf (before ++ text) := by
  -- the part of the line that has been read grows from step to step
  induction text using runs_induction generalizing before with
  | nil => simp at h
  | blank c rest hc ih =>
    rw [runsFrom_cons_of_isBlank hc] at h
    have hrest := ih (before ++ [c]) (by simpa using hcomment) (.inl (by simp [hc]))
      (by simpa using h)
    simpa using hrest
  | run run rest hne hrun hhead ih =>
    rw [runsFrom_run_append hne hrun hhead] at h
    rcases List.mem_cons.1 h with rfl | h
    · simp only [List.mem_append, not_or] at hcomment
      have hlast : ∀ c ∈ before.getLast?, isBlank c = true := by
        refine hborder.resolve_right fun hfirst => ?_
        obtain ⟨c, run, rfl⟩ := List.exists_cons_of_ne_nil hne
        have hblank := hfirst c (by simp)
        simp [hrun c (by simp)] at hblank
      exact ⟨⟨by simpa using hne, by simpa using hrun, by simpa using hcomment.2.1⟩, before, rest,
        by simp, rfl, hcomment.1, hlast, fun c hc => .inl (hhead c hc)⟩
    · have hrest := ih (before ++ run) (by simpa using hcomment) (.inr hhead)
        (by simpa [Nat.add_right_comm] using h)
      simpa using hrest

/-- In front of the first word that is found there are blanks alone. -/
lemma exists_gap_of_head?_runsFrom (h : w ∈ (runsFrom column text).head?) :
    (∃ c ∈ w.text.toList.head?, isBlank c = false) ∧
      ∃ gap after, text = gap ++ w.text.toList ++ after ∧ w.column = column + gap.length ∧
        ∀ c ∈ gap, isBlank c = true := by
  induction text using runs_induction generalizing column with
  | nil => simp at h
  | blank c rest hc ih =>
    rw [runsFrom_cons_of_isBlank hc] at h
    obtain ⟨hfirst, gap, after, rfl, hcolumn, hgap⟩ := ih h
    refine ⟨hfirst, c :: gap, after, by simp, ?_, by simpa [hc] using hgap⟩
    rw [hcolumn, List.length_cons]
    omega
  | run run rest hne hrun hhead ih =>
    rw [runsFrom_run_append hne hrun hhead] at h
    obtain rfl := Option.some.inj h
    obtain ⟨c, run, rfl⟩ := List.exists_cons_of_ne_nil hne
    exact ⟨⟨c, by simp, hrun c (by simp)⟩, [], rest, by simp, rfl, by simp⟩

/-- What is found in the rest of a line comes in order, with gaps between the words. -/
lemma isChain_runsFrom (before text : List Char) :
    (runsFrom (before.length + 1) text).IsChain (Word.LeadsTo (before ++ text)) := by
  induction text using runs_induction generalizing before with
  | nil =>
    rw [runsFrom_nil]
    exact List.isChain_nil
  | blank c rest hc ih =>
    rw [runsFrom_cons_of_isBlank hc]
    simpa using ih (before ++ [c])
  | run run rest hne hrun hhead ih =>
    have hrest := ih (before ++ run)
    rw [List.length_append, Nat.add_right_comm, List.append_assoc] at hrest
    rw [runsFrom_run_append hne hrun hhead]
    cases hnext : runsFrom (before.length + 1 + run.length) rest with
    | nil => exact List.isChain_singleton _
    | cons w ws =>
      rw [hnext] at hrest
      have hmem : w ∈ (runsFrom (before.length + 1 + run.length) rest).head? := by
        rw [hnext]
        rfl
      obtain ⟨⟨c, hc, hnot⟩, gap, after, rfl, hcolumn, hgap⟩ := exists_gap_of_head?_runsFrom hmem
      refine List.isChain_cons_cons.2 ⟨⟨before, gap, after, by simp, rfl, ?_, ?_, hgap⟩, hrest⟩
      · rw [hcolumn, String.toList_ofList]
      · -- the run is not followed at once by the first character of a word
        rintro rfl
        have hblank := hhead c (by simp [List.head?_append, Option.mem_def.1 hc])
        simp [hnot] at hblank

/-! ## Comments -/

/-- The runs in front of a comment are those of the line. -/
lemma isRunOf_beforeComment_iff : w.IsRunOf (beforeComment line) ↔ w.IsRunOf line := by
  constructor
  · rintro ⟨hplain, before, after, heq, hcolumn, hcomment, hlast, hhead⟩
    refine ⟨hplain, before, after ++ line.dropWhile (· ≠ '#'), ?_, hcolumn, hcomment, hlast, ?_⟩
    · rw [← List.append_assoc, ← heq, beforeComment_append]
    · intro c hc
      cases after with
      | cons b after => exact hhead c hc
      | nil =>
        -- the word goes up to the comment
        have hsign := List.head?_dropWhile_not (fun d => decide (d ≠ '#')) line
        rw [List.nil_append] at hc
        rw [Option.mem_def.1 hc] at hsign
        exact .inr (by simpa using hsign)
  · rintro ⟨hplain, before, after, rfl, hcolumn, hcomment, hlast, hhead⟩
    have hnone : '#' ∉ before ++ w.text.toList := fun hc =>
      (List.mem_append.1 hc).elim hcomment hplain.uncommented
    exact ⟨hplain, before, beforeComment after, beforeComment_append_of_notMem hnone after, hcolumn,
      hcomment, hlast, fun c hc => hhead c (mem_head?_beforeComment_iff.1 hc).1⟩

/-- The words of a line are its runs. -/
lemma mem_words_iff : w ∈ words line ↔ w.IsRunOf line := by
  rw [← isRunOf_beforeComment_iff, words_eq]
  constructor
  · intro h
    exact isRunOf_of_mem_runsFrom [] (notMem_beforeComment line) (.inl (by simp)) h
  · rintro ⟨hplain, before, after, heq, hcolumn, -, hlast, hhead⟩
    have hstop : ∀ c ∈ after.head?, isBlank c = true := by
      intro c hc
      refine (hhead c hc).resolve_right ?_
      rintro rfl
      refine notMem_beforeComment line ?_
      rw [heq]
      exact List.mem_append_right _ (List.mem_of_mem_head? hc)
    have hw : (⟨String.ofList w.text.toList, 1 + before.length⟩ : Word) = w := by
      rw [String.ofList_toList, Nat.add_comm, ← hcolumn]
    rw [heq, List.append_assoc, runsFrom_append (.inl hlast),
      runsFrom_run_append hplain.ne_nil hplain.unbroken hstop, hw]
    simp

/-! ## The words of a line -/

lemma Word.LeadsTo.append {v : Word} (h : Word.LeadsTo line v w) (comment : List Char) :
    Word.LeadsTo (line ++ comment) v w := by
  obtain ⟨before, gap, after, rfl, hv, hw, hne, hgap⟩ := h
  exact ⟨before, gap, after ++ comment, by simp, hv, hw, hne, hgap⟩

lemma Word.LeadsTo.column_lt {v : Word} (h : Word.LeadsTo line v w) : v.column < w.column := by
  obtain ⟨before, gap, after, -, -, hw, hne, -⟩ := h
  have hgap := List.length_pos_iff.2 hne
  omega

/-- The words of a line come one after the other, with gaps between them. -/
lemma isChain_words (line : List Char) : (words line).IsChain (Word.LeadsTo line) := by
  rw [words_eq]
  refine (isChain_runsFrom [] (beforeComment line)).imp fun v w h => ?_
  have hline := h.append (line.dropWhile (· ≠ '#'))
  rwa [List.nil_append, beforeComment_append] at hline

/-- The words of a line are its runs: each run is found, with the column at which it stands, and
nothing else.  They come in the order of their columns, and from each of them to the next there is a
gap of blanks.  A comment has no part in this: it can be left out, and any comment can be put behind
what is not one. -/
theorem words_are_runs (line : List Char) :
    (∀ w, w ∈ words line ↔ w.IsRunOf line) ∧
      (words line).Pairwise (fun v w => v.column < w.column) ∧
      (words line).IsChain (Word.LeadsTo line) ∧
      words (beforeComment line) = words line ∧
      ∀ comment, words (beforeComment line ++ '#' :: comment) = words line := by
  have hnone := notMem_beforeComment line
  have hcolumns : ((words line).map Word.column).IsChain (· < ·) :=
    (List.isChain_map _).2 ((isChain_words line).imp fun _ _ h => h.column_lt)
  refine ⟨fun w => mem_words_iff, ?_, isChain_words line, ?_, fun comment => ?_⟩
  · exact List.pairwise_map.1 hcolumns.pairwise
  · rw [words_eq, beforeComment_of_notMem hnone, words_eq]
  · rw [words_eq, beforeComment_append_cons hnone, words_eq]

/-- A word ends at a number sign as it does at a blank, and the column of the next counts all
blanks. -/
example : words "\tbind\u2003x#y z".toList = [⟨"bind", 2⟩, ⟨"x", 7⟩] := by
  decide +kernel

end Runs

end Text

end TargetScope
