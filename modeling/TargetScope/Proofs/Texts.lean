import TargetScope.Proofs.Nesting
import TargetScope.Proofs.Outcomes
import TargetScope.Proofs.Reading
import TargetScope.Proofs.Scanning

/-!
# Analyses of texts

What an analysis of a text comes to, for every text.

* It has a result unless it reaches a number with too many digits: one diagnostic if the text is
  rejected, and a tree if it is not (`analyzeText_eq_ok_iff`).  A number that is too long is the
  one mistake of a user that does not end in a diagnostic.
* An event that is out of place is reported at the line and the column of its first word.  These
  are places in the event file; the file of the diagnostic, however, is the source file if a header
  names one (`analyzeText_locates_misplaced`).
-/

namespace TargetScope

open Text

/-- The tree that a text describes, if the text can be read and its events describe one. -/
def ScopeTree.ofText? (text filename : String) : Option ScopeTree :=
  match EventStream.read text with
  | .ok s => (ofEvents s.unitName (s.source.or (some filename)) s.events).toOption
  | .error _ => none

lemma SyntaxFault.code_notMem_misplacedCodes (f : SyntaxFault) :
    f.code ∉ StructureFault.misplacedCodes := by
  cases f <;> simp [code, StructureFault.misplacedCodes]

lemma Failure.code_notMem_misplacedCodes (f : Failure) :
    f.code ∉ StructureFault.misplacedCodes := by
  rw [code]
  split <;> decide

/-! ## Analyses of events -/

section Events

variable {unitName filename : Option String} {events : List Event}

/-- The analysis of events that describe no tree. -/
lemma analyzeEvents_of_eq_error (mode : Mode) {e : StructureError}
    (he : ScopeTree.ofEvents unitName filename events = .error e) :
    ∃ a, analyzeEvents mode events unitName filename = .ok a ∧ a.tree = none ∧
      a.diagnostics = [e.diagnostic unitName filename] := by
  simp only [analyzeEvents, he]
  exact ⟨_, rfl, rfl, rfl⟩

/-- The analysis of events that describe a tree. -/
lemma analyzeEvents_of_eq_ok (mode : Mode) {t : ScopeTree}
    (he : ScopeTree.ofEvents unitName filename events = .ok t) :
    ∃ a, analyzeEvents mode events unitName filename = .ok a ∧
      a.tree = some (t.analyze mode).1 ∧
      ∀ d ∈ a.diagnostics, ∃ f : Failure, d.code = some f.code := by
  have hc := ScopeTree.classified_ofEvents he
  obtain ⟨t', r, -, -, heq⟩ := hc.analyze_eq mode
  obtain ⟨a, ha, htree⟩ : ∃ a, analyzeEvents mode events unitName filename = .ok a ∧
      a.tree = some (t.analyze mode).1 := by
    simp only [analyzeEvents, he, heq]
    exact ⟨_, rfl, rfl⟩
  refine ⟨a, ha, htree, ?_⟩
  intro d hd
  rw [diagnostics_analyzeEvents he ha] at hd
  obtain ⟨v, -, hv⟩ := List.mem_filterMap.1 hd
  obtain ⟨f, -, rfl⟩ := Option.map_eq_some_iff.1 hv
  exact ⟨f, f.code_diagnose mode t _⟩

end Events

/-! ## Results -/

section Texts

variable {mode : Mode} {text filename : String} {digits : Nat} {s : EventStream}

/-- The analysis of a text that can be read. -/
lemma analyzeText_of_read {a : Analysis} (hs : EventStream.read text = .ok s)
    (ha : analyzeEvents mode s.events s.unitName (s.source.or (some filename)) = .ok a) :
    analyzeText mode text filename = .ok a := by
  simp only [analyzeText, hs, EventStream.analyze, ha]

/-- A number that is too long stops the analysis. -/
lemma analyzeText_eq_numberTooLong (h : ReachesLongNumber text digits) :
    analyzeText mode text filename = .error (.numberTooLong digits) := by
  rw [analyzeText, EventStream.read_eq_numberTooLong_iff.2 h]

/-- Nothing else stops the analysis. -/
lemma exists_analyzeText_eq_ok (h : ∀ digits, ¬ReachesLongNumber text digits) (mode : Mode)
    (filename : String) :
    ∃ a, analyzeText mode text filename = .ok a ∧
      match ScopeTree.ofText? text filename with
      | some t => a.tree = some (t.analyze mode).1
      | none => a.tree = none ∧ ∃ d, a.diagnostics = [d] ∧ d.severity = .error := by
  rw [ScopeTree.ofText?]
  cases hs : EventStream.read text with
  | error e =>
    cases e with
    | malformed e =>
      exact ⟨_, by rw [analyzeText, hs], rfl, _, rfl, rfl⟩
    | numberTooLong digits => exact absurd (EventStream.read_eq_numberTooLong_iff.1 hs) (h digits)
  | ok s =>
    simp only
    cases he : ScopeTree.ofEvents s.unitName (s.source.or (some filename)) s.events with
    | error e =>
      obtain ⟨a, ha, htree, hdiag⟩ := analyzeEvents_of_eq_error mode he
      exact ⟨a, analyzeText_of_read hs ha, htree, _, hdiag, rfl⟩
    | ok t =>
      obtain ⟨a, ha, htree, -⟩ := analyzeEvents_of_eq_ok mode he
      exact ⟨a, analyzeText_of_read hs ha, htree⟩

/-- When the analysis of a text has a result.  It has one if and only if it reaches no number with
too many digits; then a text that is rejected has no tree and exactly one diagnostic, an error, and
every other text has its tree.  A number that is too long stops the analysis without any result. -/
theorem analyzeText_eq_ok_iff (mode : Mode) (text filename : String) :
    ((∃ a, analyzeText mode text filename = .ok a ∧
        match ScopeTree.ofText? text filename with
        | some t => a.tree = some (t.analyze mode).1
        | none => a.tree = none ∧ ∃ d, a.diagnostics = [d] ∧ d.severity = .error) ↔
      ∀ digits, ¬ReachesLongNumber text digits) ∧
    ∀ digits, ReachesLongNumber text digits →
      analyzeText mode text filename = .error (.numberTooLong digits) := by
  refine ⟨⟨?_, fun h => exists_analyzeText_eq_ok h mode filename⟩,
    fun digits h => analyzeText_eq_numberTooLong h⟩
  rintro ⟨a, ha, -⟩ digits h
  rw [analyzeText_eq_numberTooLong h] at ha
  simp at ha

/-- A position whose line has the given number of digits. -/
def onesPosition (digits : Nat) : List Char :=
  '@' :: (List.replicate digits '1' ++ [':', '1'])

/-- The entry of a module at that position. -/
def onesLine (digits : Nat) : List Char :=
  "enter".toList ++ ' ' :: ("module".toList ++ ' ' :: onesPosition digits)

/-- A text of which only the number of digits can be wrong. -/
def onesText (digits : Nat) : String :=
  String.ofList (onesLine digits ++ '\n' :: "exit\n".toList)

lemma mem_onesPosition {c : Char} (hc : c ∈ onesPosition digits) : c ∈ ['@', '1', ':'] := by
  simp only [onesPosition, List.mem_cons, List.mem_append, List.mem_replicate] at hc ⊢
  tauto

lemma mem_onesLine {c : Char} (hc : c ∈ onesLine digits) : c ∈ "enter module@1:".toList := by
  simp only [onesLine, List.mem_append, List.mem_cons] at hc
  rcases hc with hc | rfl | hc | rfl | hc
  · exact (by decide : "enter".toList ⊆ "enter module@1:".toList) hc
  · decide
  · exact (by decide : "module".toList ⊆ "enter module@1:".toList) hc
  · decide
  · exact (by decide : ['@', '1', ':'] ⊆ "enter module@1:".toList) (mem_onesPosition hc)

/-- No character of the line ends it or begins a comment. -/
lemma isLineBreak_of_mem_onesLine {c : Char} (hc : c ∈ onesLine digits) :
    isLineBreak c = false ∧ c ≠ '#' := by
  have hall : "enter module@1:".toList.all (fun c => !isLineBreak c && c != '#') := by decide
  simpa using List.all_eq_true.1 hall c (mem_onesLine hc)

lemma forall_isBlank_of_all {l : List Char} (h : l.all fun c => !isBlank c) :
    ∀ c ∈ l, isBlank c = false := by
  simpa using h

lemma words_onesLine (digits : Nat) :
    words (onesLine digits) =
      [⟨"enter", 1⟩, ⟨"module", 7⟩, ⟨String.ofList (onesPosition digits), 14⟩] := by
  have hcomment : beforeComment (onesLine digits) = onesLine digits :=
    List.takeWhile_eq_self_iff.2 fun c hc => decide_eq_true (isLineBreak_of_mem_onesLine hc).2
  have hblank : ∀ c ∈ onesPosition digits, isBlank c = false := fun c hc =>
    forall_isBlank_of_all (by decide) c (mem_onesPosition hc)
  rw [words_eq, hcomment, onesLine,
    runsFrom_append_blank (by decide) (forall_isBlank_of_all (by decide)) (by decide),
    runsFrom_append_blank (by decide) (forall_isBlank_of_all (by decide)) (by decide),
    runsFrom_run (by simp [onesPosition]) hblank]
  simp

lemma reachesLongNumber_onesText (h : maxDigits < digits) :
    ReachesLongNumber (onesText digits) digits := by
  have hbreak : ∀ c ∈ onesLine digits, isLineBreak c = false := fun c hc =>
    (isLineBreak_of_mem_onesLine hc).1
  have hlines : numberedLines (onesText digits) =
      (onesLine digits, 1) :: (lines "exit\n".toList).zipIdx 2 := by
    rw [numberedLines, onesText, String.toList_ofList, lines_append_newline hbreak,
      List.zipIdx_cons]
  refine ⟨[], _, _, {}, hlines, rfl, _, _, _, words_onesLine digits, rfl, ?_⟩
  refine ⟨List.replicate digits '1', ['1'], String.toList_ofList, ?_, rfl, Or.inl ⟨?_, ?_⟩⟩
  · have hpos : digits ≠ 0 := by omega
    simp [isNumeral, hpos]
  · rwa [List.length_replicate]
  · rw [List.length_replicate]

/-- A text without any result. -/
theorem analyzeText_onesText :
    analyzeText .warn (onesText 4301) "unit.events" = .error (.numberTooLong 4301) :=
  analyzeText_eq_numberTooLong (reachesLongNumber_onesText (by decide))

/-! ## Places -/

/-- A diagnostic about an event that is out of place is that of the fault for which the events of
the text describe no tree. -/
lemma exists_structureError {a : Analysis} {d : Diagnostic}
    (ha : analyzeText mode text filename = .ok a) (hd : d ∈ a.diagnostics)
    (hcode : ∃ code ∈ StructureFault.misplacedCodes, d.code = some code) :
    ∃ s e, EventStream.read text = .ok s ∧
      ScopeTree.ofEvents s.unitName (s.source.or (some filename)) s.events = .error e ∧
      e.fault.code ∈ StructureFault.misplacedCodes ∧
      d = e.diagnostic s.unitName (s.source.or (some filename)) := by
  obtain ⟨code, hmis, hcode⟩ := hcode
  rw [analyzeText] at ha
  cases hs : EventStream.read text with
  | error e =>
    cases e with
    | malformed e =>
      -- the codes of the reader are others
      rw [hs] at ha
      obtain rfl := Except.ok.inj ha
      obtain rfl := List.mem_singleton.1 hd
      rw [e.code_diagnostic] at hcode
      obtain rfl := Option.some.inj hcode
      exact absurd hmis e.fault.code_notMem_misplacedCodes
    | numberTooLong digits => simp [hs] at ha
  | ok s =>
    simp only [hs, EventStream.analyze] at ha
    cases he : ScopeTree.ofEvents s.unitName (s.source.or (some filename)) s.events with
    | ok t =>
      -- and so are those of the failures
      obtain ⟨a', ha', -, hcodes⟩ := analyzeEvents_of_eq_ok mode he
      rw [ha'] at ha
      obtain rfl := Except.ok.inj ha
      obtain ⟨f, hf⟩ := hcodes d hd
      obtain rfl := Option.some.inj (hf.symm.trans hcode)
      exact absurd hmis f.code_notMem_misplacedCodes
    | error e =>
      obtain ⟨a', ha', -, hdiag⟩ := analyzeEvents_of_eq_error mode he
      rw [ha'] at ha
      obtain rfl := Except.ok.inj ha
      rw [hdiag] at hd
      obtain rfl := List.mem_singleton.1 hd
      rw [e.code_diagnostic] at hcode
      obtain rfl := Option.some.inj hcode
      exact ⟨s, e, rfl, he, hmis, rfl⟩

/-- The report of an event that is out of place.  If the analysis of a text reports one, then a line
of the text, of which all lines before are in place, holds an action that is not; the diagnostic is
about that fault, and stands at the line and at the column of its first word.  The file that it
names is the source file of the text, if the text names one, and else the event file: so it names
the event file if and only if no other file is given as the source. -/
theorem analyzeText_locates_misplaced {a : Analysis} {d : Diagnostic}
    (ha : analyzeText mode text filename = .ok a) (hd : d ∈ a.diagnostics)
    (hcode : ∃ code ∈ StructureFault.misplacedCodes, d.code = some code) :
    ∃ s before line after head args action,
      EventStream.read text = .ok s ∧ numberedLines text = before ++ line :: after ∧
      words line.1 = head :: args ∧ readDirective line.2 head args = .ok (.event action) ∧
      Action.WellPlaced ((before.filterMap Event.onLine?).map Event.action) ∧
      action.Misplaced ((before.filterMap Event.onLine?).map Event.action) ∧
      d.message =
        (StructureFault.misplaced ((before.filterMap Event.onLine?).map Event.action)
          action).message ∧
      d.line = some (line.2 : Int) ∧ d.column = some (head.column : Int) ∧
      d.filename = s.source.or (some filename) ∧
      (d.filename = some filename ↔ ∀ source ∈ s.source, source = filename) := by
  obtain ⟨s, e, hs, he, hmis, rfl⟩ := exists_structureError ha hd hcode
  obtain ⟨earlier, event, later, hsplit, hw, hm, rfl⟩ := ScopeTree.ofEvents_eq_error he hmis
  obtain ⟨before, line, after, hlines, rfl, hline⟩ := EventStream.exists_line_of_read hs hsplit
  obtain ⟨head, args, hwords, hdir, horigin⟩ := Event.of_onLine? hline
  refine ⟨s, before, line, after, head, args, event.action, hs, hlines, hwords, hdir, hw, hm,
    rfl, ?_, ?_, rfl, ?_⟩
  · simp [StructureError.diagnostic, Diagnostic.at?, horigin]
  · simp [StructureError.diagnostic, Diagnostic.at?, horigin]
  · show s.source.or (some filename) = some filename ↔ _
    cases s.source <;> simp

/-- The second exit is out of place. -/
def exitTwice : String :=
  "enter module m\nexit\nexit\n"

/-- An analysis with one diagnostic, from what can be computed of it. -/
lemma exists_diagnostic_of_eval {α : Type} {read : Diagnostic → α} {x : α}
    (h : (analyzeText mode text filename).toOption.map (fun a => a.diagnostics.map read) =
      some [x]) :
    ∃ a d, analyzeText mode text filename = .ok a ∧ a.diagnostics = [d] ∧ read d = x := by
  obtain ⟨a, ha, hmap⟩ := Option.map_eq_some_iff.1 h
  obtain ⟨d, hd, hx⟩ := List.map_eq_singleton_iff.1 hmap
  refine ⟨a, d, ?_, hd, hx⟩
  cases hr : analyzeText mode text filename with
  | error e => simp [hr, Except.toOption] at ha
  | ok a' => simpa [hr, Except.toOption] using ha

/-- Without a header, the report names the event file. -/
theorem analyzeText_locates_misplaced_exitTwice :
    ∃ a d, analyzeText .warn exitTwice "unit.events" = .ok a ∧ a.diagnostics = [d] ∧
      d.code = some "DRV-0020" ∧ d.filename = some "unit.events" := by
  have heval : (analyzeText .warn exitTwice "unit.events").toOption.map
      (fun a => a.diagnostics.map Diagnostic.code) = some [some "DRV-0020"] := by decide +kernel
  obtain ⟨a, d, ha, hd, hcode⟩ := exists_diagnostic_of_eval heval
  have hmem : d ∈ a.diagnostics := by rw [hd]; exact List.mem_singleton_self d
  obtain ⟨s, -, -, -, -, -, -, hs, -, -, -, -, -, -, -, -, -, hfile⟩ :=
    analyzeText_locates_misplaced ha hmem ⟨_, by decide, hcode⟩
  have hsource : (EventStream.read exitTwice).toOption.map EventStream.source = some none := by
    decide +kernel
  rw [hs] at hsource
  have hnone : s.source = none := Option.some.inj hsource
  exact ⟨a, d, ha, hd, hcode, hfile.2 (by simp [hnone])⟩

/-- With a header, the same mistake is reported at its place in the event file, but as if this were
a place in the source file. -/
theorem filename_exitTwice_of_header :
    ∃ a d, analyzeText .warn ("source main.py\n" ++ exitTwice) "unit.events" = .ok a ∧
      a.diagnostics = [d] ∧ d.code = some "DRV-0020" ∧ d.line = some 4 ∧ d.column = some 1 ∧
      d.filename = some "main.py" ∧ d.filename ≠ some "unit.events" := by
  have heval : (analyzeText .warn ("source main.py\n" ++ exitTwice) "unit.events").toOption.map
      (fun a => a.diagnostics.map fun d => (d.code, d.line, d.column, d.filename)) =
      some [(some "DRV-0020", some 4, some 1, some "main.py")] := by decide +kernel
  obtain ⟨a, d, ha, hd, hx⟩ := exists_diagnostic_of_eval heval
  simp only [Prod.mk.injEq] at hx
  obtain ⟨hcode, hline, hcolumn, hfile⟩ := hx
  exact ⟨a, d, ha, hd, hcode, hline, hcolumn, hfile, by rw [hfile]; decide⟩

end Texts

end TargetScope
