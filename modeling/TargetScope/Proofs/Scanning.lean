import Mathlib.Data.List.TakeWhile
import TargetScope.Text.Word

/-!
# Comments and runs

A line is read in one go, character by character, until a number sign ends it.  Its words are the
same as those of what stands before the first number sign, where only blanks end a word
(`Text.words_eq`).  So comments and words can be looked at one after the other: the part of a line
that is no comment is `Text.beforeComment`, and its maximal runs without blanks are
`Text.runsFrom`.
-/

namespace TargetScope.Text

/-! ## Runs -/

/-- The maximal runs of characters that are not blank, where the first character of the text stands
at the given column. -/
def runsFrom (column : Nat) : List Char → List Word
  | [] => []
  | c :: rest =>
    if isBlank c then runsFrom (column + 1) rest
    else
      let run := c :: rest.takeWhile fun d => !isBlank d
      ⟨String.ofList run, column⟩ ::
        runsFrom (column + run.length) (rest.dropWhile fun d => !isBlank d)
termination_by text => text.length
decreasing_by
  · simp
  · simpa using Nat.lt_succ_of_le (List.dropWhile_suffix _).length_le

@[simp] lemma runsFrom_nil (column : Nat) : runsFrom column [] = [] := by
  simp [runsFrom]

lemma runsFrom_cons_of_isBlank {c : Char} (h : isBlank c = true) (column : Nat)
    (rest : List Char) : runsFrom column (c :: rest) = runsFrom (column + 1) rest := by
  rw [runsFrom, if_pos h]

/-- A run without blanks is one word up to a blank, and what follows is read by itself. -/
lemma runsFrom_run_append {run : List Char} (hne : run ≠ [])
    (hrun : ∀ c ∈ run, isBlank c = false) {rest : List Char}
    (hrest : ∀ c ∈ rest.head?, isBlank c = true) (column : Nat) :
    runsFrom column (run ++ rest) =
      ⟨String.ofList run, column⟩ :: runsFrom (column + run.length) rest := by
  cases run with
  | nil => exact absurd rfl hne
  | cons c run =>
    have hc : isBlank c = false := hrun c (by simp)
    have htail : ∀ d ∈ run, (!isBlank d) = true := fun d hd => by simp [hrun d (by simp [hd])]
    have hends : rest.takeWhile (fun d => !isBlank d) = [] ∧
        rest.dropWhile (fun d => !isBlank d) = rest := by
      cases rest with
      | nil => exact ⟨rfl, rfl⟩
      | cons b rest => simp [hrest b rfl]
    rw [List.cons_append, runsFrom, if_neg (by simp [hc]), List.takeWhile_append_of_pos htail,
      List.dropWhile_append_of_pos htail, hends.1, hends.2, List.append_nil]

/-- A run without blanks is one word, and what follows it after a blank is read by itself. -/
lemma runsFrom_append_blank {run : List Char} (hne : run ≠ [])
    (hrun : ∀ c ∈ run, isBlank c = false) {b : Char} (hb : isBlank b = true) (column : Nat)
    (rest : List Char) :
    runsFrom column (run ++ b :: rest) =
      ⟨String.ofList run, column⟩ :: runsFrom (column + run.length + 1) rest := by
  rw [runsFrom_run_append hne hrun (by simpa using hb), runsFrom_cons_of_isBlank hb]

/-- A run without blanks is one word. -/
lemma runsFrom_run {run : List Char} (hne : run ≠ []) (hrun : ∀ c ∈ run, isBlank c = false)
    (column : Nat) : runsFrom column run = [⟨String.ofList run, column⟩] := by
  have hnil : ∀ c ∈ ([] : List Char).head?, isBlank c = true := by simp
  rw [← runsFrom_nil (column + run.length), ← runsFrom_run_append hne hrun hnil, List.append_nil]

/-! ## Comments -/

/-- The part of a line that is no comment. -/
def beforeComment (line : List Char) : List Char :=
  line.takeWhile (· ≠ '#')

section Comments

variable {c : Char} {text line rest : List Char}

lemma notMem_beforeComment (line : List Char) : '#' ∉ beforeComment line := by
  intro h
  simpa using List.mem_takeWhile_imp h

lemma beforeComment_append (line : List Char) :
    beforeComment line ++ line.dropWhile (· ≠ '#') = line :=
  List.takeWhile_append_dropWhile

/-- A comment does not begin before its number sign. -/
lemma beforeComment_append_of_notMem (h : '#' ∉ text) (rest : List Char) :
    beforeComment (text ++ rest) = text ++ beforeComment rest := by
  refine List.takeWhile_append_of_pos fun c hc => ?_
  rw [decide_eq_true_eq]
  rintro rfl
  exact h hc

lemma beforeComment_of_notMem (h : '#' ∉ line) : beforeComment line = line := by
  simpa [beforeComment] using beforeComment_append_of_notMem h []

/-- A number sign ends what is read of a line. -/
lemma beforeComment_append_cons (h : '#' ∉ text) (comment : List Char) :
    beforeComment (text ++ '#' :: comment) = text := by
  rw [beforeComment_append_of_notMem h]
  simp [beforeComment]

lemma mem_head?_beforeComment_iff : c ∈ (beforeComment line).head? ↔ c ∈ line.head? ∧ c ≠ '#' := by
  cases line with
  | nil => simp [beforeComment]
  | cons d line =>
    by_cases hd : d = '#'
    · simp [beforeComment, hd, eq_comm]
    · have hhead : (beforeComment (d :: line)).head? = some d := by simp [beforeComment, hd]
      rw [hhead, List.head?_cons, iff_self_and]
      rintro ⟨⟩
      exact hd

/-! ## Reading in one go -/

lemma isBlank_of_belongsToWord (h : belongsToWord c = true) : isBlank c = false := by
  simp only [belongsToWord, Bool.and_eq_true, Bool.not_eq_true'] at h
  exact h.1

lemma notMem_of_belongsToWord (h : ∀ c ∈ text, belongsToWord c = true) : '#' ∉ text :=
  fun hc => absurd (h _ hc) (by decide)

/-- In front of any comment, only a blank can follow the characters of a word. -/
lemma isBlank_of_head?_dropWhile
    (hc : c ∈ (beforeComment (rest.dropWhile belongsToWord)).head?) : isBlank c = true := by
  obtain ⟨hc, hne⟩ := mem_head?_beforeComment_iff.1 hc
  have hnot := List.head?_dropWhile_not belongsToWord rest
  rw [Option.mem_def.1 hc] at hnot
  simpa [belongsToWord, hne] using hnot

/-- The words that are read of a text are the runs in front of its first number sign. -/
lemma wordsFrom_eq (column : Nat) (text : List Char) :
    wordsFrom column text = runsFrom column (beforeComment text) := by
  fun_induction wordsFrom column text with
  | case1 => simp [beforeComment]
  | case2 column rest => simp [beforeComment]
  | case3 column c rest hsign hblank ih =>
    have hcons : beforeComment (c :: rest) = c :: beforeComment rest := by
      simp [beforeComment, hsign]
    rw [hcons, runsFrom_cons_of_isBlank hblank, ih]
  | case4 column c rest hsign hblank run ih =>
    have hword : ∀ d ∈ run, belongsToWord d = true := by
      intro d hd
      rcases List.mem_cons.1 hd with rfl | hd
      · simp [belongsToWord, hblank, hsign]
      · exact List.mem_takeWhile_imp hd
    have hsplit : c :: rest = run ++ rest.dropWhile belongsToWord := by
      rw [List.cons_append, List.takeWhile_append_dropWhile]
    rw [hsplit, beforeComment_append_of_notMem (notMem_of_belongsToWord hword),
      runsFrom_run_append (by simp [run]) (fun d hd => isBlank_of_belongsToWord (hword d hd))
        (fun d hd => isBlank_of_head?_dropWhile hd), ih]

/-- The words of a line are the runs in front of its comment. -/
lemma words_eq (line : List Char) : words line = runsFrom 1 (beforeComment line) :=
  wordsFrom_eq 1 line

end Comments

end TargetScope.Text
