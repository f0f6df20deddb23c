import TargetScope.Proofs.Texts

/-!
# What diagnostics report

A finding is what a check has against an event file, its text, its events, or one of its targets
(`Finding`).  What is found depends on the input alone: the reader names the fault of a text, the
builder that of the events, and the law of resolution the targets that are not allowed
(`findings`, `findingsInText`, `findingsInFile`).

Each finding is filed under the code and the category of the check (`Finding.FiledUnder`), and the
code is one of the registered ones.  The diagnostics of an analysis report what is found, one by one
and in order (`diagnostics_report_findings`).  Their codes are read from messages that repeat names,
words and paths of the user; none of these is ever taken for a code, since the code of the check
comes before them.
-/

namespace TargetScope

/-! ## Findings -/

/-- What a check finds wrong. -/
inductive Finding where
  /-- The event file cannot be read as text. -/
  | unreadable (fault : FileFault)
  /-- The text has a fault. -/
  | malformed (error : SyntaxError)
  /-- The events describe no scope tree. -/
  | misbuilt (error : StructureError)
  /-- A target is not allowed. -/
  | refused (failure : Failure)
deriving DecidableEq, Repr

namespace Finding

/-- The family of the codes of a finding. -/
def family : Finding → String
  | unreadable _ | misbuilt _ => "DRV"
  | malformed _ => "EVT"
  | refused _ => "RES"

/-- The code under which a finding is filed, and its category.  Only targets have one: that of a
missing binding, of a shadowed binding, or of a class scope. -/
inductive FiledUnder : Finding → String → Option String → Prop
  /-- An unreadable file, for whatever reason. -/
  | unreadable (fault : FileFault) : FiledUnder (.unreadable fault) "DRV-0010" none
  /-- A fault of the text has a code of its own. -/
  | malformed (error : SyntaxError) : FiledUnder (.malformed error) error.fault.code none
  /-- So has a fault of the events. -/
  | misbuilt (error : StructureError) : FiledUnder (.misbuilt error) error.fault.code none
  /-- No binding comes before an augmented target. -/
  | missingAugmented {f : Failure} (reason_eq : f.reason = .missingBinding)
      (operator_eq : f.site.operator = .augmented) :
      FiledUnder (.refused f) "RES-0110" "TargetNameError"
  /-- No binding comes before an inline target. -/
  | missingInline {f : Failure} (reason_eq : f.reason = .missingBinding)
      (operator_eq : f.site.operator = .inline) :
      FiledUnder (.refused f) "RES-0111" "TargetNameError"
  /-- The block scope forbids the target. -/
  | shadowedByBlock {f : Failure} (reason_eq : f.reason = .blockScopeShadow) :
      FiledUnder (.refused f) "RES-0120" "ShadowedBindingTarget"
  /-- A transparent scope forbids the target. -/
  | shadowedOnPath {f : Failure} (reason_eq : f.reason = .transparentScopeShadow) :
      FiledUnder (.refused f) "RES-0121" "ShadowedBindingTarget"
  /-- The target would belong to the body of a class. -/
  | inClassBody {f : Failure} (reason_eq : f.reason = .classBody) :
      FiledUnder (.refused f) "RES-0130" "ClassScopeUnsupported"

end Finding

/-- The diagnostic reports the finding: its code is the one under which the finding is filed, with
the category that goes with it, and it is registered in the family of the finding. -/
def Diagnostic.Reports (d : Diagnostic) (x : Finding) : Prop :=
  ∃ code codes, d.code = some code ∧ x.FiledUnder code d.category ∧
    (x.family, codes) ∈ Diagnostic.codeFamilies ∧ code ∈ codes

/-! ## What is found -/

/-- What is found in the events of a unit: that they describe no tree, or else the targets that the
law of resolution does not allow, in program order. -/
def findings (unitName filename : Option String) (events : List Event) : List Finding :=
  match ScopeTree.ofEvents unitName filename events with
  | .error e => [.misbuilt e]
  | .ok _ => (history events).verdicts.filterMap fun v => v.2.failure?.map .refused

/-- What is found in an event stream that was read from the given file. -/
def EventStream.findings (s : EventStream) (filename : String) : List Finding :=
  TargetScope.findings s.unitName (s.source.or (some filename)) s.events

/-- What is found in a text that cannot be read.  A number that is too long is found by no check. -/
def ReadError.findings : ReadError → List Finding
  | malformed e => [.malformed e]
  | numberTooLong _ => []

/-- What is found in the text of an event file. -/
def findingsInText (text filename : String) : List Finding :=
  match EventStream.read text with
  | .ok s => s.findings filename
  | .error e => e.findings

/-- What is found in an event file. -/
def findingsInFile (files : FileSource) (path : String) : List Finding :=
  match EventStream.load files path with
  | .ok s => s.findings (Path.ofText path).text
  | .error (.unreadable fault) => [.unreadable fault]
  | .error (.unread e) => e.findings

/-! ## Codes and categories -/

/-- A finding is filed under one code and in one category. -/
lemma Finding.FiledUnder.unique {x : Finding} {code code' : String}
    {category category' : Option String} (h : x.FiledUnder code category)
    (h' : x.FiledUnder code' category') : code = code' ∧ category = category' := by
  cases h <;> cases h' <;> simp_all

/-- The kind of failure that goes with a reason. -/
def FailureReason.kind : FailureReason → FailureKind
  | missingBinding => .targetName
  | blockScopeShadow | transparentScopeShadow => .shadowedBinding
  | classBody => .classScope

section Reports

variable {x : Finding} {code : String} {category : Option String} {f : Failure}

/-- The code of a finding is registered in its family. -/
lemma Finding.FiledUnder.registered (h : x.FiledUnder code category) :
    ∃ codes, (x.family, codes) ∈ Diagnostic.codeFamilies ∧ code ∈ codes := by
  cases h with
  | malformed e => exact ⟨_, .head _, by cases e.fault <;> simp [SyntaxFault.code]⟩
  | unreadable fault => exact ⟨_, .tail _ (.head _), by simp⟩
  | misbuilt e => exact ⟨_, .tail _ (.head _), by cases e.fault <;> simp [StructureFault.code]⟩
  | _ => exact ⟨_, .tail _ (.tail _ (.head _)), by simp⟩

lemma Diagnostic.reports_of_filedUnder {d : Diagnostic} (hcode : d.code = some code)
    (h : x.FiledUnder code d.category) : d.Reports x := by
  obtain ⟨codes, hfamily, hmem⟩ := h.registered
  exact ⟨code, codes, hcode, h, hfamily, hmem⟩

/-- A failure of the kind that goes with its reason is filed under its code and that kind. -/
lemma Failure.filedUnder (h : f.kind = f.reason.kind) :
    Finding.FiledUnder (.refused f) f.code (some f.kind.text) := by
  obtain ⟨kind, reason, ⟨index, name, scope, operator, position, order⟩, stop, blocking, fallback⟩ := f
  obtain rfl : kind = reason.kind := h
  cases reason with
  | missingBinding =>
    cases operator with
    | augmented => exact .missingAugmented rfl rfl
    | inline => exact .missingInline rfl rfl
  | blockScopeShadow => exact .shadowedByBlock rfl
  | transparentScopeShadow => exact .shadowedOnPath rfl
  | classBody => exact .inClassBody rfl

/-- The law of resolution gives each failure the kind that goes with its reason. -/
lemma History.kind_of_verdict {h : History} {o : Occurrence} {site : UseSite}
    (hf : (h.verdict o site).failure? = some f) : f.kind = f.reason.kind := by
  revert hf
  refine h.verdict_elim o site ?onPath ?inClass ?inBlock ?missing ?bound
  case bound => simp [Verdict.failure?]
  all_goals
    intros
    obtain rfl := Option.some.inj ‹_›
    rfl

lemma History.kind_of_mem_verdicts {h : History} {v : Nat × Verdict} (hv : v ∈ h.verdicts)
    (hf : v.2.failure? = some f) : f.kind = f.reason.kind := by
  obtain ⟨k, hk, rfl⟩ := List.mem_mapIdx.1 hv
  exact kind_of_verdict hf

end Reports

/-! ## Analyses -/

section Analyses

variable {mode : Mode} {a : Analysis} {text filename path : String} {files : FileSource}

/-- The diagnostics of events report what is found in them. -/
lemma exists_reports (mode : Mode) (events : List Event) (unitName filename : Option String) :
    ∃ a, analyzeEvents mode events unitName filename = .ok a ∧
      List.Forall₂ Diagnostic.Reports a.diagnostics (findings unitName filename events) := by
  cases he : ScopeTree.ofEvents unitName filename events with
  | error e =>
    obtain ⟨a, ha, -, hdiagnostics⟩ := analyzeEvents_of_eq_error mode he
    refine ⟨a, ha, ?_⟩
    rw [hdiagnostics, findings, he]
    exact .cons (Diagnostic.reports_of_filedUnder (e.code_diagnostic _ _) (.misbuilt e)) .nil
  | ok t =>
    obtain ⟨a, ha, -⟩ := exists_analyzeEvents he mode
    refine ⟨a, ha, ?_⟩
    rw [diagnostics_analyzeEvents he ha, findings, he]
    simp only [← List.map_filterMap]
    rw [List.forall₂_map_left_iff, List.forall₂_map_right_iff, List.forall₂_same]
    intro f hf
    obtain ⟨v, hv, hf⟩ := List.mem_filterMap.1 hf
    exact Diagnostic.reports_of_filedUnder (f.code_diagnose mode t t.filename)
      (Failure.filedUnder (History.kind_of_mem_verdicts hv hf))

lemma forall₂_reports_stream {s : EventStream} (ha : s.analyze mode filename = .ok a) :
    List.Forall₂ Diagnostic.Reports a.diagnostics (s.findings filename) := by
  obtain ⟨a', ha', hreports⟩ :=
    exists_reports mode s.events s.unitName (s.source.or (some filename))
  rw [EventStream.analyze, ha'] at ha
  obtain rfl := Except.ok.inj ha
  exact hreports

lemma reports_malformed (e : SyntaxError) (filename : String) :
    (e.diagnostic filename).Reports (.malformed e) :=
  Diagnostic.reports_of_filedUnder (e.code_diagnostic filename) (.malformed e)

/-- The diagnostics of a text report what is found in it. -/
lemma forall₂_reports_text (ha : analyzeText mode text filename = .ok a) :
    List.Forall₂ Diagnostic.Reports a.diagnostics (findingsInText text filename) := by
  rw [analyzeText] at ha
  rw [findingsInText]
  cases hread : EventStream.read text with
  | ok s =>
    rw [hread] at ha
    exact forall₂_reports_stream ha
  | error e =>
    rw [hread] at ha
    cases e with
    | malformed e =>
      obtain rfl := Except.ok.inj ha
      exact .cons (reports_malformed e filename) .nil
    | numberTooLong digits => exact absurd ha (by simp)

/-- The diagnostics of an event file report what is found in it. -/
lemma forall₂_reports_file (ha : analyzeFile files mode path = .ok a) :
    List.Forall₂ Diagnostic.Reports a.diagnostics (findingsInFile files path) := by
  rw [findingsInFile]
  cases hload : EventStream.load files path with
  | ok s =>
    simp only [analyzeFile, hload] at ha
    cases hs : s.analyze mode (Path.ofText path).text with
    | ok a' =>
      rw [hs] at ha
      obtain rfl := Except.ok.inj ha
      -- what is announced goes to the log and leaves the diagnostics as they are
      have hreports := forall₂_reports_stream hs
      exact hreports
    | error e =>
      rw [hs] at ha
      exact absurd ha (by simp [Except.map])
  | error e =>
    cases e with
    | unreadable fault =>
      simp only [analyzeFile, hload] at ha
      obtain rfl := Except.ok.inj ha
      exact .cons (Diagnostic.reports_of_filedUnder (fault.code_of_message path rfl)
        (.unreadable fault)) .nil
    | unread e =>
      cases e with
      | malformed e =>
        simp only [analyzeFile, hload] at ha
        obtain rfl := Except.ok.inj ha
        exact .cons (reports_malformed e _) .nil
      | numberTooLong digits => simp [analyzeFile, hload] at ha

/-- What is reported of a single finding. -/
lemma exists_of_reports {ds : List Diagnostic} {x : Finding} {code : String}
    {category : Option String} (h : List.Forall₂ Diagnostic.Reports ds [x])
    (hx : x.FiledUnder code category) :
    ∃ d, ds = [d] ∧ d.code = some code ∧ d.category = category := by
  obtain ⟨d, ds', ⟨code', codes, hcode, hfiled, -⟩, hnil, rfl⟩ := List.forall₂_cons_right_iff.1 h
  obtain rfl := List.forall₂_nil_right_iff.1 hnil
  obtain ⟨rfl, rfl⟩ := hfiled.unique hx
  exact ⟨d, rfl, hcode, rfl⟩

/-- The diagnostics of an analysis report what is found in its input, one by one and in order: each
of them has the code of the check that failed, which is a registered one, and the category that goes
with it.  This holds in every mode, of events, texts and files alike, and whatever the names, words
and paths in them are. -/
theorem diagnostics_report_findings (mode : Mode) :
    (∀ (events : List Event) (unitName filename : Option String),
      ∃ a, analyzeEvents mode events unitName filename = .ok a ∧
        List.Forall₂ Diagnostic.Reports a.diagnostics (findings unitName filename events)) ∧
    (∀ (text filename : String) (a : Analysis), analyzeText mode text filename = .ok a →
      List.Forall₂ Diagnostic.Reports a.diagnostics (findingsInText text filename)) ∧
    ∀ (files : FileSource) (path : String) (a : Analysis), analyzeFile files mode path = .ok a →
      List.Forall₂ Diagnostic.Reports a.diagnostics (findingsInFile files path) := by
  refine ⟨exists_reports mode, ?_, ?_⟩
  · intro text filename a ha
    exact forall₂_reports_text ha
  · intro files path a ha
    exact forall₂_reports_file ha

/-- A unit in which all names look like codes. -/
def bracketedNames : List Event :=
  [.enter .moduleBody (some "[EVT-0010]") none, .enter .functionBody (some "[RES-0130]") none,
    .mention "[DRV-0020]" (.target .inline) none, .exit, .exit].map fun action => { action }

/-- What looks like a code in the events, in the words of a text, or in the name of a file that is
not there, is not taken for one. -/
theorem diagnostics_report_findings_bracketedNames :
    (∃ a d, analyzeEvents .warn bracketedNames (some "[RES-0121]") none = .ok a ∧
      a.diagnostics = [d] ∧ d.code = some "RES-0111" ∧ d.category = some "TargetNameError") ∧
    (∃ a d, analyzeText .warn "[RES-0110] x" "[RES-0120]" = .ok a ∧ a.diagnostics = [d] ∧
      d.code = some "EVT-0010") ∧
    ∃ a d, analyzeFile ({} : FileTree).source .warn "[EVT-0020]" = .ok a ∧ a.diagnostics = [d] ∧
      d.code = some "DRV-0010" := by
  obtain ⟨hevents, htexts, hfiles⟩ := diagnostics_report_findings .warn
  refine ⟨?_, ?_, ?_⟩
  · obtain ⟨a, ha, hreports⟩ := hevents bracketedNames (some "[RES-0121]") none
    have hfound : findings (some "[RES-0121]") none bracketedNames =
        [.refused { kind := .targetName, reason := .missingBinding, scope := 1,
                    site := ⟨0, "[DRV-0020]", 1, .inline, none, 3⟩, fallback := some 1 }] := by
      decide +kernel
    rw [hfound] at hreports
    obtain ⟨d, hd, hcode, hcategory⟩ := exists_of_reports hreports (.missingInline rfl rfl)
    exact ⟨a, d, ha, hd, hcode, hcategory⟩
  · have hok : (analyzeText .warn "[RES-0110] x" "[RES-0120]").isOk = true := by decide +kernel
    cases ha : analyzeText .warn "[RES-0110] x" "[RES-0120]" with
    | error e => simp [ha, Except.isOk, Except.toBool] at hok
    | ok a =>
      have hreports := htexts _ _ a ha
      have hfound : findingsInText "[RES-0110] x" "[RES-0120]" =
          [.malformed ⟨.unknownDirective "[RES-0110]", 1, 1⟩] := by decide +kernel
      rw [hfound] at hreports
      obtain ⟨d, hd, hcode, -⟩ := exists_of_reports hreports (.malformed _)
      exact ⟨a, d, rfl, hd, hcode⟩
  · have hok : (analyzeFile ({} : FileTree).source .warn "[EVT-0020]").isOk = true := by
      decide +kernel
    cases ha : analyzeFile ({} : FileTree).source .warn "[EVT-0020]" with
    | error e => simp [ha, Except.isOk, Except.toBool] at hok
    | ok a =>
      have hreports := hfiles _ _ a ha
      have hfound : findingsInFile ({} : FileTree).source "[EVT-0020]" = [.unreadable .notFound] := by
        decide +kernel
      rw [hfound] at hreports
      obtain ⟨d, hd, hcode, -⟩ := exists_of_reports hreports (.unreadable _)
      exact ⟨a, d, rfl, hd, hcode⟩

end Analyses

end TargetScope
