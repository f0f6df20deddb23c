import Mathlib.Data.List.Basic
import TargetScope.Path

/-!
# Paths that are written and read again

A path that was read is tidy (`Path.tidy_ofText`): it has a root of at most two slashes, and its
names are neither empty nor a dot and hold no slash.  The written form of a tidy path is read as the
same path (`Path.ofText_text`).  So it does not matter how often the name of a file goes through its
path before the file is read.
-/

namespace TargetScope

namespace Path

/-- The path has one of the three roots, and names that mean something. -/
structure Tidy (p : Path) : Prop where
  root_eq : p.root = "" ∨ p.root = "/" ∨ p.root = "//"
  names_eq : ∀ n ∈ p.names, n ≠ "" ∧ n ≠ "." ∧ '/' ∉ n.toList

/-! ## Texts that are cut at slashes -/

lemma splitSlashes_eq_splitOn (text : List Char) : splitSlashes text = text.splitOn '/' := by
  induction text with
  | nil => rfl
  | cons c text ih =>
    rw [splitSlashes, ih, List.splitOn_cons_eq_if_modifyHead]
    by_cases hc : c = '/'
    · simp [hc]
    · cases hsplit : text.splitOn '/' with
      | nil => exact absurd hsplit (List.splitOn_ne_nil _ _)
      | cons name names => simp [hc]

lemma slash_notMem {text name : List Char} (h : name ∈ splitSlashes text) : '/' ∉ name := by
  induction text generalizing name with
  | nil => simp_all [splitSlashes]
  | cons c text ih =>
    rw [splitSlashes] at h
    split at h
    · rcases List.mem_cons.1 h with rfl | h
      · simp
      · exact ih h
    · next hc =>
      split at h
      · obtain rfl := List.mem_singleton.1 h
        simpa using Ne.symm hc
      · next name' names heq =>
        rcases List.mem_cons.1 h with rfl | h
        · have hname : name' ∈ splitSlashes text := by simp [heq]
          simpa [Ne.symm hc] using ih hname
        · exact ih (by simp [heq, h])

/-- A path that was read is tidy. -/
lemma tidy_ofText (text : String) : (ofText text).Tidy where
  root_eq := by
    simp only [ofText, rootOf]
    split
    · exact Or.inl rfl
    · split
      · exact Or.inr (Or.inr rfl)
      · exact Or.inr (Or.inl rfl)
  names_eq := by
    intro n hn
    simp only [ofText, List.mem_filter, List.mem_map, Bool.and_eq_true, decide_eq_true_eq] at hn
    obtain ⟨⟨name, hname, rfl⟩, hempty, hdot⟩ := hn
    exact ⟨hempty, hdot, by simpa using slash_notMem hname⟩

/-! ## What is written is read again -/

section Tidy

variable {p : Path} {names : List String}

/-- The names in the written form of a path. -/
def joined (names : List String) : List Char :=
  ['/'].intercalate (names.map String.toList)

lemma names_joined (hnames : ∀ n ∈ names, n ≠ "" ∧ n ≠ "." ∧ '/' ∉ n.toList) :
    ((splitSlashes (joined names)).map String.ofList).filter (fun n => n ≠ "" && n ≠ ".") =
      names := by
  cases names with
  | nil => rfl
  | cons n names =>
    have hslash : ∀ name ∈ (n :: names).map String.toList, '/' ∉ name := by
      intro name hname
      obtain ⟨m, hm, rfl⟩ := List.mem_map.1 hname
      exact (hnames m hm).2.2
    have hsplit : (splitSlashes (joined (n :: names))).map String.ofList = n :: names := by
      rw [joined, splitSlashes_eq_splitOn, List.splitOn_intercalate _ hslash (by simp)]
      simp [Function.comp_def]
    rw [hsplit, List.filter_eq_self]
    intro m hm
    simp [hnames m hm]

/-- No name begins with a slash. -/
lemma takeWhile_joined (hnames : ∀ n ∈ names, n ≠ "" ∧ n ≠ "." ∧ '/' ∉ n.toList) :
    (joined names).takeWhile (· = '/') = [] := by
  cases names with
  | nil => rfl
  | cons n names =>
    obtain ⟨hne, -, hslash⟩ := hnames n (by simp)
    obtain ⟨c, rest, hn⟩ := List.exists_cons_of_ne_nil fun h => hne (String.toList_eq_nil_iff.1 h)
    have hc : c ≠ '/' := by
      rintro rfl
      simp [hn] at hslash
    cases names <;> simp [joined, hn, hc]

/-- The written form of a tidy path is read as the path. -/
lemma ofText_text (h : p.Tidy) : ofText p.text = p := by
  by_cases hdot : p.root = "" ∧ p.names = []
  · obtain ⟨root, names⟩ := p
    obtain ⟨rfl, rfl⟩ := hdot
    decide
  · have htext : p.text.toList = p.root.toList ++ joined p.names := by
      rw [text, if_neg hdot, String.toList_append, String.toList_intercalate]
      rfl
    have hnames := names_joined h.names_eq
    have hroot := takeWhile_joined h.names_eq
    obtain ⟨root, names⟩ := p
    simp only [ofText, htext, mk.injEq]
    rcases h.root_eq with rfl | rfl | rfl
    · simpa [hroot, rootOf] using hnames
    · simpa [hroot, rootOf, splitSlashes] using hnames
    · simpa [hroot, rootOf, splitSlashes] using hnames

end Tidy

end Path

end TargetScope
