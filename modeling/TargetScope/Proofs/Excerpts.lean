import Mathlib.Data.String.Basic
import TargetScope.Proofs.Accounting
import TargetScope.Proofs.Faults
import TargetScope.Proofs.Paths

/-!
# The excerpt below a fault

A run that meets a fault in its event file shows the faulty line of the file and, in a second row,
a caret.  The reader of event files and the excerpt count lines and columns in the same way, so the
row shows the line that was read, and the caret stands under the first character of the word at
fault (`SyntaxError.ShownBy`), however wide the numbers are and whatever is put in front of both
rows.  A fault stands in a line of the file, so that a text has room for the blanks before the
caret.  The main result is `Command.run_shows_fault`.
-/

namespace TargetScope

open Text

/-- The upper row ends in the line of the text on which the fault is, behind the number of this
line; the lower row ends in its only caret, which is as far from the left as the first character of
the word at fault is in the upper row. -/
def SyntaxError.ShownBy (e : SyntaxError) (text upper lower : String) : Prop :=
  ∃ (indent gutter source before after pad : String) (w : Word),
    (lines text.toList)[e.line - 1]? = some source.toList ∧
    w ∈ words source.toList ∧ w.column = e.column ∧ w.text = e.fault.word ∧
    source = before ++ w.text ++ after ∧ w.column = before.length + 1 ∧
    gutter = indent ++ toString e.line ++ " | " ∧ (∀ c ∈ indent.toList, c = ' ') ∧
    upper = gutter ++ source ∧
    lower = pad ++ "^" ∧ '^' ∉ pad.toList ∧ pad.length = (gutter ++ before).length

/-! ## The room for a line -/

lemma length_le_utf8Len (cs : List Char) : cs.length ≤ String.utf8Len cs := by
  induction cs with
  | nil => exact Nat.le_refl 0
  | cons c cs ih =>
    have hsize := c.utf8Size_pos
    rw [List.length_cons, String.utf8Len_cons]
    omega

lemma length_normalizeNewlines_le (text : List Char) :
    (normalizeNewlines text).length ≤ text.length := by
  fun_induction normalizeNewlines text with
  | case1 => exact Nat.le_refl 0
  | case2 rest ih =>
    simp only [List.length_cons]
    omega
  | case3 rest _ ih =>
    simp only [List.length_cons]
    omega
  | case4 c rest _ _ ih =>
    simp only [List.length_cons]
    omega

lemma length_le_of_mem_lines {text line : List Char} (h : line ∈ lines text) :
    line.length ≤ text.length := by
  fun_induction lines text generalizing line with
  | case1 => simp at h
  | case2 rest ih =>
    rcases List.mem_cons.1 h with rfl | h
    · exact Nat.zero_le _
    · have hle := ih h
      simp only [List.length_cons]
      omega
  | case3 c rest _ hc ih =>
    rcases List.mem_cons.1 h with rfl | h
    · exact Nat.zero_le _
    · exact Nat.le_succ_of_le (ih h)
  | case4 c rest _ hc ih =>
    cases hlines : lines rest with
    | nil =>
      rw [hlines, prependChar, List.mem_singleton] at h
      simp [h]
    | cons first others =>
      rw [hlines, prependChar] at h
      rcases List.mem_cons.1 h with rfl | h
      · exact Nat.succ_le_succ (ih (hlines ▸ List.mem_cons_self))
      · exact Nat.le_succ_of_le (ih (hlines ▸ List.mem_cons_of_mem _ h))

/-- A text has no more characters than its file has bytes. -/
lemma FileSource.exists_length_le {files : FileSource} {path text : String}
    (h : files.readText path = .ok text) :
    ∃ bytes, files (Path.ofText path).text = .ok bytes ∧ text.length ≤ bytes.size := by
  rw [readText] at h
  cases hbytes : files (Path.ofText path).text with
  | error fault => simp [hbytes] at h
  | ok bytes =>
    refine ⟨bytes, rfl, ?_⟩
    simp only [hbytes, decodeUtf8, String.fromUTF8?] at h
    by_cases hvalid : bytes.IsValidUTF8
    · simp only [hvalid, dite_true, Except.ok.injEq] at h
      have hle := length_normalizeNewlines_le (String.fromUTF8 bytes hvalid).toList
      have hsize : String.utf8Len (String.fromUTF8 bytes hvalid).toList = bytes.size := by
        rw [← String.utf8ByteSize_ofList, String.ofList_toList]
        rfl
      have hchars := length_le_utf8Len (String.fromUTF8 bytes hvalid).toList
      rw [← h, String.length_ofList]
      omega
    · simp [hvalid] at h
/-! ## The two rows -/

/-- The row with the caret below a fault. -/
def SyntaxError.caretRow (e : SyntaxError) : String :=
  blankRun (gutterWidth e.line) ++ gutterRule ++ blankRun (e.column - 1) ++ "^"

section Rows

variable {text : String} {e : SyntaxError} {c : Char} {longest : Nat}

/-- There is room for the caret below a fault if there is room for the line up to it. -/
lemma caretRow_eq_some (h : e.column - 1 ≤ longest) :
    caretRow longest e.line e.column none = some e.caretRow := by
  have hbefore : (max 1 (e.column : Int)).toNat - 1 = e.column - 1 := by omega
  simp only [caretRow, hbefore, if_pos h]
  rfl

@[simp] lemma length_blankRun (n : Nat) : (blankRun n).length = n := by
  simp [blankRun]

lemma eq_space_of_mem_blankRun {n : Nat} (hc : c ∈ (blankRun n).toList) : c = ' ' := by
  rw [blankRun, String.toList_ofList] at hc
  exact List.eq_of_mem_replicate hc

lemma lineNumbered?_eq {n : Nat} {line : String} (hn : 1 ≤ n)
    (hline : (lines text.toList)[n - 1]? = some line.toList) :
    lineNumbered? text n = some line := by
  rw [lineNumbered?, if_pos (by omega), Int.toNat_natCast, hline]
  simp

/-- The two rows of the excerpt show the fault. -/
lemma shownBy_rows {source before after : String} {w : Word}
    (hline : (lines text.toList)[e.line - 1]? = some source.toList)
    (hw : w ∈ words source.toList) (hcolumn : w.column = e.column) (hword : w.text = e.fault.word)
    (hsource : source = before ++ w.text ++ after) (hbefore : w.column = before.length + 1) :
    e.ShownBy text (sourceRow e.line source) e.caretRow := by
  refine ⟨blankRun (gutterWidth e.line - (toString e.line).length), _, source, before, after,
    blankRun (gutterWidth e.line) ++ gutterRule ++ blankRun (e.column - 1), w,
    hline, hw, hcolumn, hword, hsource, hbefore, rfl, fun c hc => eq_space_of_mem_blankRun hc,
    rfl, rfl, ?_, ?_⟩
  · simp only [String.toList_append, List.mem_append, not_or]
    refine ⟨⟨fun hc => ?_, by decide⟩, fun hc => ?_⟩ <;>
      exact absurd (eq_space_of_mem_blankRun hc) (by decide)
  · have hwidth : (toString e.line).length ≤ gutterWidth e.line := Nat.le_max_right 5 _
    have hrule : " | ".length = 3 := by decide
    have hgutter : gutterRule.length = 3 := hrule
    simp only [String.length_append, length_blankRun, hrule, hgutter]
    omega

lemma isLineBreak_of_mem_toString {n : Nat} (hc : c ∈ (toString n).toList) :
    isLineBreak c = false := by
  rw [Nat.toString_eq_ofList_toDigits, String.toList_ofList] at hc
  have hdigit : c.isDigit = true := Nat.isDigit_of_mem_toDigits (by decide) (by decide) hc
  by_contra hbreak
  have hblank := isBlank_of_isLineBreak (Bool.not_eq_false _ ▸ hbreak)
  rw [(not_separator_of_isDigit hdigit).1] at hblank
  exact Bool.false_ne_true hblank

lemma isLineBreak_of_mem_blankRun {n : Nat} (hc : c ∈ (blankRun n).toList) :
    isLineBreak c = false := by
  rw [eq_space_of_mem_blankRun hc]
  decide

lemma isLineBreak_of_mem_gutterRule (hc : c ∈ gutterRule.toList) : isLineBreak c = false := by
  have hall : gutterRule.toList.all (fun c => !isLineBreak c) = true := by decide
  simpa using List.all_eq_true.1 hall c hc

/-- Neither row goes over more than one line, if the line that is shown does not. -/
lemma isLineBreak_of_mem_rows {source : String}
    (hsource : ∀ c ∈ source.toList, isLineBreak c = false)
    (hc : c ∈ (sourceRow e.line source ++ e.caretRow).toList) : isLineBreak c = false := by
  simp only [sourceRow, SyntaxError.caretRow, String.toList_append, List.mem_append] at hc
  rcases hc with (((hc | hc) | hc) | hc) | ((hc | hc) | hc) | hc
  · exact isLineBreak_of_mem_blankRun hc
  · exact isLineBreak_of_mem_toString hc
  · exact isLineBreak_of_mem_gutterRule hc
  · exact hsource c hc
  · exact isLineBreak_of_mem_blankRun hc
  · exact isLineBreak_of_mem_gutterRule hc
  · exact isLineBreak_of_mem_blankRun hc
  · obtain rfl : c = '^' := by simpa using hc
    decide

end Rows

namespace Diagnostic

/-- Below a fault there are two rows, if its line is one of those of its file. -/
lemma excerptRows_eq {text filename : String} {files : FileSource} {e : SyntaxError}
    {source : String} {longest : Nat} (hfilename : filename ≠ "")
    (htext : files.readText filename = .ok text) (hpos : 1 ≤ e.line)
    (hline : (lines text.toList)[e.line - 1]? = some source.toList)
    (hroom : e.column - 1 ≤ longest) :
    (e.diagnostic filename).excerptRows files longest =
      some [sourceRow e.line source, e.caretRow] := by
  simp only [excerptRows, SyntaxError.diagnostic, if_neg hfilename, htext,
    lineNumbered?_eq hpos hline, caretRow_eq_some hroom, Option.map_some]

end Diagnostic

/-- A path that was written out leads to the file to which it led. -/
lemma FileSource.readText_text (files : FileSource) (path : String) :
    files.readText (Path.ofText path).text = files.readText path := by
  rw [readText, readText, Path.ofText_text (Path.tidy_ofText path)]

namespace Command

/-- What is put in front of each error. -/
def errorLead (o : Options) (time : String) : String :=
  if o.rich then time ++ " [ERROR] " else ""

lemma lead_error (message time : String) :
    (Log.Entry.error message).lead time = time ++ " [ERROR] " := by
  have htag : " [" ++ "ERROR" ++ "] " = " [ERROR] " := by decide
  rw [Log.Entry.lead, Log.Entry.error, Log.Level.tag?, ← htag]
  simp only [String.append_assoc]

/-- Errors are shown at every level. -/
lemma render_error (o : Options) (message time : String) :
    (Log.Entry.error message).render (some o.logSettings) time =
      errorLead o time ++ message ++ "\n" := by
  have hshown : ¬o.logSettings.level.rank < Log.Level.error.rank := by
    simp only [Options.logSettings]
    split
    · decide
    · split <;> decide
  have hentry : (Log.Entry.error message).level = .error := rfl
  rw [Log.Entry.render, hentry, if_neg hshown, lead_error]
  rfl

/-- Errors stand on lines of their own, each with the same in front. -/
lemma render_errors (o : Options) (messages : List String) (time : String) :
    Log.render (messages.map .error) (some o.logSettings) time =
      unlines (messages.map (errorLead o time ++ ·)) := by
  rw [Log.render, unlines, List.map_map, List.map_map]
  congr 1
  exact List.map_congr_left fun message _ => render_error o message time

lemma render_append (xs ys : List Log.Entry) (settings : Option Log.Settings) (time : String) :
    Log.render (xs ++ ys) settings time =
      Log.render xs settings time ++ Log.render ys settings time := by
  rw [Log.render, List.map_append, String.join_append, Log.render, Log.render]

variable {s : Surroundings} {args : List String} {i : Invocation} {mode : Mode} {text : String}
  {e : SyntaxError}

lemma taskEntries_of_tree_eq_none {a : Analysis} (task : Task) (path : String)
    (h : a.tree = none) : taskEntries task a path = [] := by
  cases task <;> simp [taskEntries, h]

/-- An event file with a fault comes to the one diagnostic about it, if there is room to show it. -/
lemma analyzeAndWrite_of_malformed {entries : List Log.Entry}
    (h : EventStream.load s.files i.entry = .error (.unread (.malformed e)))
    (hentries : (e.diagnostic (Path.ofText i.entry).text).entries s.files s.longest s.directory =
      some entries) :
    analyzeAndWrite s mode i = .ok
      { exitCode := 1
        errors := Log.render
          ([.info ("Starting analysis of '" ++ i.entry ++ "'"), loadingEntry i.entry] ++ entries)
          (some i.options.logSettings) s.time } := by
  let a := (Analysis.ofDiagnostic (e.diagnostic (Path.ofText i.entry).text)).announce
    [.info ("Starting analysis of '" ++ i.entry ++ "'"), loadingEntry i.entry]
  have hfile : analyzeFile s.files mode i.entry = .ok a := by simp only [analyzeFile, h]; rfl
  have hshown : diagnosticEntries a s = .ok entries := by
    have hone : (a.diagnostics.mapM fun d => d.entries s.files s.longest s.directory) =
        some [entries] := by simp [a, Analysis.announce, Analysis.ofDiagnostic, hentries]
    rw [diagnosticEntries, hone]
    simp
  have hlines : taskLines i.task a s.nesting = .ok [] := by
    cases i.task <;> rfl
  rw [analyzeAndWrite, hfile]
  refine (writeAnalysis_eq_ok hshown hlines).trans ?_
  rw [taskEntries_of_tree_eq_none i.task i.entry rfl, List.append_nil]
  rfl

/-- What a run shows of a fault in its event file.

A run that analyses an event file in which the reader has found a fault ends with 1 and writes
nothing but errors.  Behind the notes on its progress there are three lines, each with the same in
front: the diagnostic, and two rows that show the fault. -/
theorem run_shows_fault (hargs : readArguments args = .perform i)
    (htask : i.task ∈ [.check, .tree, .sites]) (hmode : runMode s i.options = .ok mode)
    (htext : s.files.readText i.entry = .ok text)
    (he : EventStream.read text = .error (.malformed e)) :
    ∃ outcome upper lower, run s args = .ok outcome ∧ outcome.exitCode = 1 ∧ outcome.output = "" ∧
      e.ShownBy text upper lower ∧ (∀ c ∈ (upper ++ lower).toList, isLineBreak c = false) ∧
      outcome.errors =
        Log.render [.info ("Starting analysis of '" ++ i.entry ++ "'"), loadingEntry i.entry]
          (some i.options.logSettings) s.time ++
        unlines ([(e.diagnostic (Path.ofText i.entry).text).format s.directory, upper, lower].map
          (errorLead i.options s.time ++ ·)) := by
  obtain ⟨hpos, -, _, line, _, -, hget, -, ⟨w, hw, hcolumn, hword, hstands⟩, -⟩ :=
    EventStream.read_locates_fault he
  obtain ⟨before, after, hline, hbefore, -⟩ := hstands.exists_eq
  have hsource : line = String.ofList before ++ w.text ++ String.ofList after := by
    rw [← String.toList_inj]
    simpa using hline
  have hcaret : w.column = (String.ofList before).length + 1 := by simpa using hbefore
  have hshown : e.ShownBy text (sourceRow e.line line) e.caretRow :=
    shownBy_rows hget hw hcolumn hword hsource hcaret
  have hunbroken : ∀ c ∈ line.toList, isLineBreak c = false := fun c hc =>
    isLineBreak_of_mem_lines (List.mem_of_getElem? hget) hc
  -- the excerpt is taken from the same file, under the name that the path writes
  have hfilename : (Path.ofText i.entry).text ≠ "" :=
    Path.text_ne_empty fun n hn => Path.ne_empty_of_mem_names hn
  have hroom : e.column - 1 ≤ s.longest := by
    obtain ⟨bytes, hbytes, htexts⟩ := FileSource.exists_length_le htext
    have hfits := s.size_le hbytes
    have hlines := length_le_of_mem_lines (List.mem_of_getElem? hget)
    have hbegin : before.length ≤ line.toList.length := by simp [hline]
    rw [String.length_toList (s := text)] at hlines
    omega
  have hrows : (e.diagnostic (Path.ofText i.entry).text).excerptRows s.files s.longest =
      some [sourceRow e.line line, e.caretRow] :=
    Diagnostic.excerptRows_eq hfilename ((s.files.readText_text i.entry).trans htext) hpos hget
      hroom
  have hwrite : analyzeAndWrite s mode i = _ :=
    analyzeAndWrite_of_malformed (EventStream.load_eq_unread_iff.2 ⟨text, htext, he⟩)
      (by rw [Diagnostic.entries, hrows, Option.map_some])
  rw [render_append, render_errors] at hwrite
  exact ⟨_, _, _, (run_eq_analyzeAndWrite hargs htask hmode).trans hwrite, rfl, rfl, hshown,
    fun c hc => isLineBreak_of_mem_rows hunbroken hc, rfl⟩

/-- An event file in which a comment ends with a line separator, so that the line behind it is the
third. -/
def separatedLine : String :=
  "unit app\nenter module m # ends here:\u2028\tbind 1x y @1:1\nleave\n"

/-- A directory with this file, at some time of the day. -/
def withSeparatedLine : Surroundings :=
  { withFile ["unit.events"] separatedLine with time := "10:00:00" }

/-- The row that is shown is that line, behind the time as well. -/
theorem run_shows_fault_separatedLine :
    EventStream.read separatedLine = .error (.malformed ⟨.invalidName "1x", 3, 7⟩) ∧
    ∃ outcome upper lower,
      run withSeparatedLine ["-l", "check", "unit.events"] = .ok outcome ∧ outcome.exitCode = 1 ∧
      SyntaxError.ShownBy ⟨.invalidName "1x", 3, 7⟩ separatedLine upper lower ∧
      outcome.errors = unlines
        (["/work/unit.events:3:7: error: syntax: [EVT-0060] invalid name '1x'", upper, lower].map
          ("10:00:00 [ERROR] " ++ ·)) := by
  have hread : EventStream.read separatedLine = .error (.malformed ⟨.invalidName "1x", 3, 7⟩) := by
    decide +kernel
  have htext : withSeparatedLine.files.readText "unit.events" = .ok separatedLine := by
    decide +kernel
  have hargs : readArguments ["-l", "check", "unit.events"] =
      .perform ⟨.check, "unit.events", { rich := true }⟩ := by decide +kernel
  have hmode : runMode withSeparatedLine { rich := true } = .ok .warn := by decide +kernel
  obtain ⟨outcome, upper, lower, hrun, hexit, -, hshown, -, herrors⟩ :=
    run_shows_fault hargs (by simp) hmode htext hread
  refine ⟨hread, outcome, upper, lower, hrun, hexit, hshown, ?_⟩
  have hheader :
      (SyntaxError.diagnostic ⟨.invalidName "1x", 3, 7⟩ (Path.ofText "unit.events").text).format
        "/work" = "/work/unit.events:3:7: error: syntax: [EVT-0060] invalid name '1x'" := by
    decide +kernel
  -- at this level the notes on the progress are not shown
  rw [herrors, ← hheader]
  exact String.empty_append

end Command

end TargetScope
