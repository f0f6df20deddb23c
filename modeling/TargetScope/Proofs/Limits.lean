import TargetScope.Command.Run
import TargetScope.Proofs.Outlines

/-!
# The limits of a run

A run that has analysed its event file shows the diagnostics and then writes what its task asks for.
It breaks off in two cases only (`Command.BreaksOff`).  A diagnostic points into a line that can be
shown, but to a column farther to the right than a text can go; the columns stand in the event file
and can be any numbers.  Or an outline is asked for, and a scope of the tree stands deeper than an
outline can go.

In all other cases the run ends with the exit code of the analysis.  The main result is
`Command.writeAnalysis_cases`.
-/

namespace TargetScope

/-! ## Excerpts -/

namespace Diagnostic

/-- The diagnostic points into a line of a file, and to a column before which more characters stand
than the longest text has. -/
def PointsPast (d : Diagnostic) (files : FileSource) (longest : Nat) : Prop :=
  ∃ filename line column text source,
    d.filename = some filename ∧ filename ≠ "" ∧ d.line = some line ∧ d.column = some column ∧
    files.readText filename = .ok text ∧ lineNumbered? text line = some source ∧
    (longest : Int) < column - 1

variable {d : Diagnostic} {files : FileSource} {longest : Nat}

lemma caretRow_eq_none_iff {line column : Int} {name : Option String} :
    caretRow longest line column name = none ↔ (longest : Int) < column - 1 := by
  simp only [caretRow, ite_eq_right_iff, reduceCtorEq, imp_false]
  omega

/-- There is no excerpt if and only if the diagnostic points too far to the right. -/
lemma excerptRows_eq_none_iff :
    d.excerptRows files longest = none ↔ d.PointsPast files longest := by
  constructor
  · intro h
    rw [excerptRows] at h
    split at h
    · next filename line hfilename hline =>
      split at h
      · nomatch h
      · next hne =>
        split at h
        · nomatch h
        · next text htext =>
          split at h
          · nomatch h
          · next source hsource =>
            split at h
            · next column hcolumn =>
              rw [Option.map_eq_none_iff, caretRow_eq_none_iff] at h
              exact ⟨filename, line, column, text, source, hfilename, hne, hline, hcolumn, htext,
                hsource, h⟩
            · nomatch h
    · nomatch h
  · rintro ⟨filename, line, column, text, source, hfilename, hne, hline, hcolumn, htext, hsource, h⟩
    simp only [excerptRows, hfilename, hline, if_neg hne, htext, hsource, hcolumn,
      Option.map_eq_none_iff, caretRow_eq_none_iff]
    exact h

end Diagnostic

/-- A choice cannot be made for a list if and only if it cannot be made for one of its members. -/
lemma mapM_eq_none_iff {α β : Type} {l : List α} {g : α → Option β} :
    l.mapM g = none ↔ ∃ x ∈ l, g x = none := by
  induction l with
  | nil => simp
  | cons x l ih =>
    cases hx : g x <;> cases hl : l.mapM g <;> simp_all [List.mapM_cons]

namespace Command

/-! ## Runs that break off -/

/-- If the analysis has a tree, then this has an outline wherever there is room for its scopes. -/
def Outlined (a : Analysis) : Prop :=
  ∀ t, a.tree = some t → ∀ room, (Outline.text t a.annotations room = none ↔
    ∃ scope ∈ t.scopes, room ≤ (t.ancestors scope).length)

/-- A run that writes the analysis for the task breaks off. -/
inductive BreaksOff (s : Surroundings) (task : Task) (a : Analysis) : Prop
  /-- A diagnostic points too far to the right. -/
  | excerpt {d : Diagnostic} (hd : d ∈ a.diagnostics) (h : d.PointsPast s.files s.longest)
  /-- The outline of a tree is asked for in which a scope stands too deep. -/
  | outline {t : ScopeTree} {scope : Scope} (htask : task = .tree) (ht : a.tree = some t)
      (hscope : scope ∈ t.scopes) (h : s.nesting ≤ (t.ancestors scope).length)

variable {s : Surroundings} {i : Invocation} {a : Analysis} {t : ScopeTree}

lemma diagnosticEntries_eq_error (h : ∃ d ∈ a.diagnostics, d.PointsPast s.files s.longest) :
    diagnosticEntries a s = .error .rowTooLong := by
  have hnone : (a.diagnostics.mapM fun d => d.entries s.files s.longest s.directory) = none := by
    obtain ⟨d, hd, hpast⟩ := h
    refine mapM_eq_none_iff.2 ⟨d, hd, ?_⟩
    rw [Diagnostic.entries, Diagnostic.excerptRows_eq_none_iff.2 hpast]
    rfl
  rw [diagnosticEntries, hnone]

lemma exists_diagnosticEntries (h : ¬∃ d ∈ a.diagnostics, d.PointsPast s.files s.longest) :
    ∃ entries, diagnosticEntries a s = .ok entries := by
  rw [diagnosticEntries]
  cases hentries : a.diagnostics.mapM fun d => d.entries s.files s.longest s.directory with
  | none =>
    obtain ⟨d, hd, hnone⟩ := mapM_eq_none_iff.1 hentries
    rw [Diagnostic.entries, Option.map_eq_none_iff, Diagnostic.excerptRows_eq_none_iff] at hnone
    exact absurd ⟨d, hd, hnone⟩ h
  | some entries => exact ⟨_, rfl⟩

/-- The lines of the task come to nothing only where an outline is asked for that there is not. -/
lemma taskLines_cases (task : Task) (a : Analysis) (nesting : Nat) :
    (∃ lines, taskLines task a nesting = .ok lines) ∨
    (taskLines task a nesting = .error .nestedTooDeep ∧ task = .tree ∧
      ∃ t, a.tree = some t ∧ Outline.text t a.annotations nesting = none) := by
  cases htree : a.tree with
  | none => exact Or.inl ⟨[], by cases task <;> simp only [taskLines, htree]⟩
  | some t =>
    cases task with
    | check => exact Or.inl ⟨_, rfl⟩
    | events => exact Or.inl ⟨_, rfl⟩
    | sites => exact Or.inl (by simp [taskLines, htree])
    | tree =>
      cases htext : Outline.text t a.annotations nesting with
      | none => exact Or.inr ⟨by simp only [taskLines, htree, htext], rfl, t, rfl, htext⟩
      | some text => exact Or.inl ⟨[text], by simp only [taskLines, htree, htext]⟩

/-- What a run leaves behind that can show the diagnostics and write the lines of its task. -/
lemma writeAnalysis_eq_ok {shown : List Log.Entry} {lines : List String}
    (hshown : diagnosticEntries a s = .ok shown)
    (hlines : taskLines i.task a s.nesting = .ok lines) :
    writeAnalysis s i a = .ok
      { exitCode := exitCode a
        output := unlines lines
        errors := Log.render (a.entries ++ shown ++ taskEntries i.task a i.entry)
          (some i.options.logSettings) s.time } := by
  rw [writeAnalysis, hshown, hlines]
  rfl

/-- A run that writes an analysis breaks off, or ends with the exit code of the analysis. -/
lemma writeAnalysis_cases (h : Outlined a) :
    (BreaksOff s i.task a ∧ ∃ e, writeAnalysis s i a = .error e) ∨
    (¬BreaksOff s i.task a ∧
      ∃ outcome, writeAnalysis s i a = .ok outcome ∧ outcome.exitCode = exitCode a) := by
  by_cases hpast : ∃ d ∈ a.diagnostics, d.PointsPast s.files s.longest
  · refine Or.inl ⟨?_, .rowTooLong, by rw [writeAnalysis, diagnosticEntries_eq_error hpast]; rfl⟩
    obtain ⟨d, hd, hpast⟩ := hpast
    exact .excerpt hd hpast
  obtain ⟨entries, hentries⟩ := exists_diagnosticEntries hpast
  rcases taskLines_cases i.task a s.nesting with
    ⟨lines, hlines⟩ | ⟨hlines, htask, t, ht, htext⟩
  · refine Or.inr ⟨?_, _, writeAnalysis_eq_ok hentries hlines, rfl⟩
    rintro (⟨hd, hd'⟩ | ⟨htask, ht, hscope, hdepth⟩)
    · exact hpast ⟨_, hd, hd'⟩
    · have htext := (h _ ht _).2 ⟨_, hscope, hdepth⟩
      simp [taskLines, htask, ht, htext] at hlines
  · obtain ⟨scope, hscope, hdepth⟩ := (h t ht _).1 htext
    refine Or.inl ⟨.outline htask ht hscope hdepth, .nestedTooDeep, ?_⟩
    rw [writeAnalysis, hentries, hlines]
    rfl

end Command

end TargetScope
