import TargetScope.Proofs.Limits
import TargetScope.Proofs.Listing
import TargetScope.Proofs.Storage

/-!
# Each target is accounted for

After an analysis each use site stands in one of three ways (`Standing`): its target is bound and
has no diagnostic; or a missing binding is tolerated, with a warning; or the target is refused, with
an error and without an owner.  The three exclude each other (`Analysis.Stands.unique`), and the law
of resolution says which of them it is (`Analysis.Follows.exists_stands`).

So an analysis has errors if and only if some target has no owner
(`Analysis.Accounts.hasErrors_iff`), and this is what the exit code of a command reports, unless the
run breaks off when it writes the analysis.  A column in the event file can be so large that no text
has room for the carets below the source; then the run ends with 1, though every target may have an
owner (`Command.run_breaks_off_of_farTarget`).
-/

namespace TargetScope

/-! ## How a target can stand -/

/-- The ways in which a target can stand after an analysis. -/
inductive Standing where
  /-- The target is bound to its owner. -/
  | bound
  /-- The target has no binding before it, and the mode tolerates that. -/
  | tolerated
  /-- The target is not allowed. -/
  | refused
deriving DecidableEq, Repr

namespace Analysis

variable {a : Analysis} {t : ScopeTree} {mode : Mode} {site : UseSite} {x y : Standing}

/-- The analysis of the tree says that the target of the site stands in the given way. -/
def Stands (a : Analysis) (t : ScopeTree) (mode : Mode) (site : UseSite) : Standing → Prop
  | .bound => ∃ w, a.verdicts.lookup site.index = some (.bound w) ∧
      a.owners.lookup site.index = some w ∧ a.diagnosticOf? site = none
  | .tolerated => mode ≠ .strict ∧ ∃ f d s block,
      a.verdicts.lookup site.index = some (.failed f) ∧ f.reason = .missingBinding ∧
      a.diagnosticOf? site = some d ∧ d.severity = .warning ∧
      t.scopeAt? site.scope = some s ∧ t.nearestBlock s = some block ∧
      block.kind = .functionBody ∧ a.owners.lookup site.index = some block.index
  | .refused => ∃ f d, a.verdicts.lookup site.index = some (.failed f) ∧
      a.diagnosticOf? site = some d ∧ d.severity = .error ∧ a.owners.lookup site.index = none

namespace Stands

/-- Only a target that is refused has no owner. -/
lemma lookup_owners_eq_none_iff (h : a.Stands t mode site x) :
    a.owners.lookup site.index = none ↔ x = .refused := by
  cases x with
  | bound =>
    obtain ⟨w, -, hw, -⟩ := h
    simp [hw]
  | tolerated =>
    obtain ⟨-, f, d, s, block, -, -, -, -, -, -, -, hw⟩ := h
    simp [hw]
  | refused =>
    obtain ⟨f, d, -, -, -, hw⟩ := h
    simp [hw]

/-- Only a target that is refused has an error. -/
lemma exists_error_iff (h : a.Stands t mode site x) :
    (∃ d, a.diagnosticOf? site = some d ∧ d.severity = .error) ↔ x = .refused := by
  cases x with
  | bound =>
    obtain ⟨w, -, -, hd⟩ := h
    simp [hd]
  | tolerated =>
    obtain ⟨-, f, d, s, block, -, -, hd, hs, -⟩ := h
    simp [hd, hs]
  | refused =>
    obtain ⟨f, d, -, hd, hs, -⟩ := h
    simp [hd, hs]

/-- Only a target that is bound has no diagnostic. -/
lemma diagnosticOf?_eq_none_iff (h : a.Stands t mode site x) :
    a.diagnosticOf? site = none ↔ x = .bound := by
  cases x with
  | bound =>
    obtain ⟨w, -, -, hd⟩ := h
    simp [hd]
  | tolerated =>
    obtain ⟨-, f, d, s, block, -, -, hd, -⟩ := h
    simp [hd]
  | refused =>
    obtain ⟨f, d, -, hd, -⟩ := h
    simp [hd]

/-- No target stands in two ways. -/
lemma unique (h : a.Stands t mode site x) (h' : a.Stands t mode site y) : x = y := by
  have hbound := h.diagnosticOf?_eq_none_iff.symm.trans h'.diagnosticOf?_eq_none_iff
  have hrefused := h.exists_error_iff.symm.trans h'.exists_error_iff
  cases x <;> cases y <;> simp_all

end Stands

/-- The analysis of the tree accounts for each of its use sites. -/
structure Accounts (a : Analysis) (t : ScopeTree) (mode : Mode) : Prop where
  /-- No site has two verdicts. -/
  nodup_numbers : (a.verdicts.map Prod.fst).Nodup
  /-- There is one verdict for each site, in program order. -/
  numbers_eq : a.verdicts.map Prod.fst = t.sitesInOrder.map UseSite.index
  /-- Each target stands in exactly one way. -/
  standing : ∀ site ∈ t.sites, ∃! x, a.Stands t mode site x
  /-- The diagnostics of the sites, in program order, are all diagnostics. -/
  diagnostics_eq : a.diagnostics = t.sitesInOrder.filterMap a.diagnosticOf?

namespace Accounts

/-- An analysis has errors if and only if some target has no owner. -/
lemma hasErrors_iff (h : a.Accounts t mode) :
    a.hasErrors = true ↔ ∃ site ∈ t.sites, a.owners.lookup site.index = none := by
  rw [hasErrors, h.diagnostics_eq, List.any_eq_true]
  constructor
  · rintro ⟨d, hd, hsev⟩
    obtain ⟨site, hsite, hd⟩ := List.mem_filterMap.1 hd
    have hsite : site ∈ t.sites := List.mem_mergeSort.1 hsite
    obtain ⟨x, hx, -⟩ := h.standing site hsite
    exact ⟨site, hsite, hx.lookup_owners_eq_none_iff.2
      (hx.exists_error_iff.1 ⟨d, hd, of_decide_eq_true hsev⟩)⟩
  · rintro ⟨site, hsite, hnone⟩
    obtain ⟨x, hx, -⟩ := h.standing site hsite
    obtain ⟨d, hd, hsev⟩ := hx.exists_error_iff.2 (hx.lookup_owners_eq_none_iff.1 hnone)
    exact ⟨d, List.mem_filterMap.2 ⟨site, List.mem_mergeSort.2 hsite, hd⟩, decide_eq_true hsev⟩

end Accounts

end Analysis

/-! ## The analysis of a stream -/

/-- What a choice of parts of the verdicts comes to, site by site. -/
lemma History.filterMap_verdicts {β : Type} (h : History) (f : Verdict → Option β) :
    h.verdicts.filterMap (fun v => f v.2) =
      h.sites.filterMap fun site => (h.verdicts.lookup site.index).bind f := by
  conv_lhs => rw [← h.verdicts_on_sites, Verdicts.on, List.filterMap_filterMap]
  refine List.filterMap_congr fun site _ => ?_
  cases h.verdicts.lookup site.index <;> rfl

section Stream

variable {t u : ScopeTree} {h : History} {a : Analysis} {mode : Mode} {site : UseSite}

/-- Each target of a stream stands in one of the ways. -/
lemma Analysis.Follows.exists_stands (hf : a.Follows t h mode) (hc : t.Classified h)
    (hbare : u.bare = t.bare) (hsite : site ∈ h.sites) : ∃ x, a.Stands u mode site x := by
  obtain ⟨o, operator, k, ho, -, rfl, hv⟩ := History.exists_of_mem_sites hsite
  have hverdict := hf.verdicts_eq ▸ hv
  have howner := hf.lookup_owners (o.site operator k).index
  have hdiag : a.diagnosticOf? (o.site operator k) = _ := hf.lookup_siteDiagnostics _
  rw [hv, Option.bind_some] at howner hdiag
  obtain ⟨s, block, hs, hblock, -, hframe, -⟩ := hc.exists_nearestBlock ho hbare
  have hs : u.scopeAt? (o.site operator k).scope = some s :=
    (ScopeTree.scopeAt?_natCast _ _).trans hs
  rcases h.verdict_cases o (o.site operator k) with
    ⟨f, hf, hkind, hfallback⟩ | ⟨-, -, ⟨hk, hmissing⟩ | ⟨-, hbound⟩⟩
  · rw [hf] at hverdict howner hdiag
    refine ⟨.refused, f, _, hverdict, hdiag, ?_, ?_⟩
    · exact if_neg fun h => hkind h.1
    · rw [howner, ScopeTree.owner?_failed_of_fallback hfallback]
  · rw [hmissing] at hverdict howner hdiag
    by_cases hmode : mode = .strict
    · subst hmode
      exact ⟨.refused, _, _, hverdict, hdiag, rfl, howner⟩
    · have hwarning : Failure.severity
          { kind := .targetName, reason := .missingBinding, site := o.site operator k,
            scope := o.block.index, fallback := some o.block.index } mode = .warning :=
        if_pos ⟨rfl, hmode⟩
      rw [Verdict.owner?, if_pos hwarning] at howner
      have hindex : block.index = o.block.index := congrArg Frame.index hframe
      have hkind : block.kind = o.block.kind := congrArg Frame.kind hframe
      exact ⟨.tolerated, hmode, _, _, s, block, hverdict, rfl, hdiag, hwarning, hs, hblock,
        hkind.trans hk, hindex ▸ howner⟩
  · rw [hbound] at hverdict howner hdiag
    exact ⟨.bound, _, hverdict, howner, hdiag⟩

/-- The analysis of events that describe a tree accounts for each use site. -/
lemma exists_accounts {unitName filename : Option String} {events : List Event}
    (he : ScopeTree.ofEvents unitName filename events = .ok t) (mode : Mode) :
    ∃ a u, analyzeEvents mode events unitName filename = .ok a ∧ a.tree = some u ∧
      u.sites = t.sites ∧ a.Accounts u mode := by
  have hc := ScopeTree.classified_ofEvents he
  obtain ⟨a, ha, hf⟩ := exists_analyzeEvents he mode
  obtain ⟨u, htree, hbare, hsites⟩ := hf.tree
  have horder : u.sitesInOrder = (history events).sites :=
    hc.sitesInOrder_eq (hsites.trans hc.sites_eq.symm)
  refine ⟨a, u, ha, htree, hsites.trans hc.sites_eq.symm,
    hf.verdicts_eq ▸ (history events).nodup_verdicts, ?_, ?_, ?_⟩
  · rw [hf.verdicts_eq, horder]
    apply List.ext_getElem (by simp [History.sites, History.verdicts])
    intro k _ _
    simp [History.sites, History.verdicts, Occurrence.site]
  · intro site hsite
    obtain ⟨x, hx⟩ := hf.exists_stands hc hbare (hsites ▸ hsite)
    exact ⟨x, hx, fun y hy => hy.unique hx⟩
  · rw [diagnostics_analyzeEvents he ha, horder, (history events).filterMap_verdicts fun v =>
      v.failure?.map fun f => f.diagnose mode t t.filename]
    exact List.filterMap_congr fun site _ => (hf.lookup_siteDiagnostics site.index).symm

end Stream

/-! ## The exit code of a command -/

namespace EventStream

variable {files : FileSource} {path filename : String} {stream : EventStream} {a : Analysis}
  {mode : Mode}

/-- A file holds no event stream if it can be read as text, but the text not as a stream. -/
lemma load_eq_unread_iff {e : ReadError} :
    load files path = .error (.unread e) ↔
      ∃ text, files.readText path = .ok text ∧ read text = .error e := by
  rw [load]
  cases files.readText path with
  | error fault => simp
  | ok text => cases hread : read text <;> simp [hread]

/-- No number of a stream that is loaded is too long. -/
lemma not_reachesLongNumber_of_load (h : load files path = .ok stream) (text : String)
    (htext : files.readText path = .ok text) (digits : Nat) :
    ¬Text.ReachesLongNumber text digits := by
  obtain ⟨text', s, htext', hread, -⟩ := load_eq_ok_iff.1 h
  obtain rfl := Except.ok.inj (htext.symm.trans htext')
  intro hlong
  rw [read_eq_numberTooLong_iff.2 hlong] at hread
  exact absurd hread (by simp)

lemma analyze_of_analyzeEvents
    (h : analyzeEvents mode stream.events stream.unitName (stream.source.or (some filename)) =
      .ok a) :
    stream.analyze mode filename = .ok a := by
  rw [analyze, h]

end EventStream

namespace Command

variable {s : Surroundings} {i : Invocation} {mode : Mode} {path : String} {a : Analysis}

/-- The event file can be read and describes a tree, and in its analysis every target has an
owner. -/
def AllOwned (files : FileSource) (mode : Mode) (path : String) : Prop :=
  ∃ stream t a, EventStream.load files path = .ok stream ∧
    ScopeTree.ofEvents stream.unitName (stream.source.or (some (Path.ofText path).text))
      stream.events = .ok t ∧
    stream.analyze mode (Path.ofText path).text = .ok a ∧
    ∀ site ∈ t.sites, (a.owners.lookup site.index).isSome = true

/-- What this says of a stream that is at hand, with its analysis. -/
lemma allOwned_iff {files : FileSource} {stream : EventStream}
    (hload : EventStream.load files path = .ok stream)
    (ha : stream.analyze mode (Path.ofText path).text = .ok a) :
    AllOwned files mode path ↔ ∃ t, ScopeTree.ofEvents stream.unitName
        (stream.source.or (some (Path.ofText path).text)) stream.events = .ok t ∧
      ∀ site ∈ t.sites, (a.owners.lookup site.index).isSome = true := by
  constructor
  · rintro ⟨stream', t, a', hload', he, ha', hall⟩
    obtain rfl := Except.ok.inj (hload.symm.trans hload')
    obtain rfl := Except.ok.inj (ha.symm.trans ha')
    exact ⟨t, he, hall⟩
  · rintro ⟨t, he, hall⟩
    exact ⟨stream, t, a, hload, he, ha, hall⟩

lemma exitCode_eq_zero_or_one (a : Analysis) : exitCode a = 0 ∨ exitCode a = 1 := by
  rw [exitCode]
  split
  · exact Or.inr rfl
  · exact Or.inl rfl

/-- An analysis ends with 0 if it has a tree and no errors. -/
lemma exitCode_eq_zero_iff (a : Analysis) :
    exitCode a = 0 ↔ a.tree.isSome = true ∧ a.hasErrors = false := by
  rw [exitCode]
  cases a.tree <;> cases a.hasErrors <;> simp

/-- An analysis without a tree has no outline to write. -/
lemma outlined_of_tree_eq_none (h : a.tree = none) : Outlined a := by
  intro t ht
  rw [h] at ht
  nomatch ht

/-- The tree that an analysis has made of events has an outline wherever there is room. -/
lemma outlined_of_ofEvents {unitName filename : Option String} {events : List Event}
    {t : ScopeTree} (he : ScopeTree.ofEvents unitName filename events = .ok t)
    (ha : analyzeEvents mode events unitName filename = .ok a) : Outlined a := by
  obtain ⟨a', ha', hf⟩ := exists_analyzeEvents he mode
  obtain rfl := Except.ok.inj (ha.symm.trans ha')
  obtain ⟨u, htree, hbare, -⟩ := hf.tree
  intro t' ht' room
  obtain rfl := Option.some.inj (htree.symm.trans ht')
  exact Outline.text_eq_none_iff he hbare a.annotations room

/-- The analysis of a loaded stream ends with 0 if the stream describes a tree and all targets have
owners. -/
lemma exists_analyze_stream (stream : EventStream) (mode : Mode) (filename : String) :
    ∃ a, stream.analyze mode filename = .ok a ∧ Outlined a ∧
      (exitCode a = 0 ↔ ∃ t, ScopeTree.ofEvents stream.unitName (stream.source.or (some filename))
        stream.events = .ok t ∧ ∀ site ∈ t.sites, (a.owners.lookup site.index).isSome = true) := by
  cases he : ScopeTree.ofEvents stream.unitName (stream.source.or (some filename))
    stream.events with
  | error e =>
    obtain ⟨a, ha, htree, -⟩ := analyzeEvents_of_eq_error mode he
    refine ⟨a, EventStream.analyze_of_analyzeEvents ha, outlined_of_tree_eq_none htree, ?_⟩
    rw [exitCode_eq_zero_iff, htree]
    simp
  | ok t =>
    obtain ⟨a, u, ha, htree, hsites, haccounts⟩ := exists_accounts he mode
    refine ⟨a, EventStream.analyze_of_analyzeEvents ha, outlined_of_ofEvents he ha, ?_⟩
    have hnone : a.hasErrors = true ↔ ∃ site ∈ t.sites, a.owners.lookup site.index = none :=
      hsites ▸ haccounts.hasErrors_iff
    have hall : a.hasErrors = false ↔
        ∀ site ∈ t.sites, (a.owners.lookup site.index).isSome = true := by
      rw [← Bool.not_eq_true, hnone]
      simp [Option.isSome_iff_ne_none]
    rw [exitCode_eq_zero_iff, htree, hall]
    simp

/-- An analysis that is one diagnostic has no tree. -/
lemma exitCode_ofDiagnostic (entries : List Log.Entry) (d : Diagnostic) :
    exitCode ((Analysis.ofDiagnostic d).announce entries) = 1 := rfl

/-- The analysis of an event file is that of the stream in it, behind the notes on the progress. -/
lemma analyzeFile_eq {files : FileSource} {stream : EventStream}
    (hload : EventStream.load files path = .ok stream)
    (ha : stream.analyze mode (Path.ofText path).text = .ok a) :
    analyzeFile files mode path = .ok (a.announce
      [.info ("Starting analysis of '" ++ path ++ "'"), loadingEntry path]) := by
  simp only [analyzeFile, hload, ha]
  rfl

/-- Where no number is too long, the analysis of an event file has a result, and its exit code says
whether all targets have owners. -/
lemma exists_analyzeFile (files : FileSource) (mode : Mode) (path : String)
    (h : ∀ text, files.readText path = .ok text → ∀ digits, ¬Text.ReachesLongNumber text digits) :
    ∃ a, analyzeFile files mode path = .ok a ∧ Outlined a ∧
      (exitCode a = 0 ↔ AllOwned files mode path) := by
  cases hload : EventStream.load files path with
  | error e =>
    have hnone : ¬AllOwned files mode path := by
      rintro ⟨stream, t, a, hstream, -⟩
      rw [hload] at hstream
      exact absurd hstream (by simp)
    cases e with
    | unreadable fault =>
      simp only [analyzeFile, hload]
      exact ⟨_, rfl, outlined_of_tree_eq_none rfl,
        iff_of_false (by simp [exitCode_ofDiagnostic]) hnone⟩
    | unread e =>
      cases e with
      | malformed e =>
        simp only [analyzeFile, hload]
        exact ⟨_, rfl, outlined_of_tree_eq_none rfl,
          iff_of_false (by simp [exitCode_ofDiagnostic]) hnone⟩
      | numberTooLong digits =>
        obtain ⟨text, htext, hread⟩ := EventStream.load_eq_unread_iff.1 hload
        exact absurd (EventStream.read_eq_numberTooLong_iff.1 hread) (h text htext digits)
  | ok stream =>
    obtain ⟨a, ha, houtlined, hexit⟩ := exists_analyze_stream stream mode (Path.ofText path).text
    exact ⟨_, analyzeFile_eq hload ha, houtlined, hexit.trans (allOwned_iff hload ha).symm⟩

variable {args : List String}

lemma run_eq_analyzeAndWrite (hargs : readArguments args = .perform i)
    (htask : i.task ∈ [.check, .tree, .sites]) (hmode : runMode s i.options = .ok mode) :
    run s args = analyzeAndWrite s mode i := by
  simp only [run, hargs, perform, hmode]
  cases h : i.task with
  | events => exact absurd htask (by simp [h])
  | check => rfl
  | tree => rfl
  | sites => rfl

/-- A run that has analysed its event file breaks off, or it ends with the exit code of the
analysis. -/
lemma run_cases (hargs : readArguments args = .perform i)
    (htask : i.task ∈ [.check, .tree, .sites]) (hmode : runMode s i.options = .ok mode)
    (ha : analyzeFile s.files mode i.entry = .ok a) (houtlined : Outlined a) :
    (BreaksOff s i.task a ∧ ∃ e, run s args = .error e) ∨
    (¬BreaksOff s i.task a ∧
      ∃ outcome, run s args = .ok outcome ∧ outcome.exitCode = exitCode a) := by
  have hrun : run s args = writeAnalysis s i a := by
    rw [run_eq_analyzeAndWrite hargs htask hmode, analyzeAndWrite, ha]
  rw [hrun]
  exact writeAnalysis_cases houtlined

/-- Each use site is accounted for once, and when the exit code says so.

Of events that describe a tree, the analysis has one verdict for each use site, each target is
bound, tolerated or refused, and never two of these; the diagnostics are those of the sites; and
there are errors if and only if some target has no owner.

Of an event file in which no number is too long, there is an analysis.  A run that writes this
analysis has an outcome unless it breaks off, and it ends with 0 if and only if the file can be read
and describes a tree in which every target has an owner, and the run does not break off.  Otherwise
it ends with 1. -/
theorem run_accounts_for_each_site (mode : Mode) :
    (∀ (unitName filename : Option String) (events : List Event) (t : ScopeTree),
      ScopeTree.ofEvents unitName filename events = .ok t →
        ∃ a u, analyzeEvents mode events unitName filename = .ok a ∧ a.tree = some u ∧
          u.sites = t.sites ∧ a.Accounts u mode ∧
          (a.hasErrors = true ↔ ∃ site ∈ u.sites, a.owners.lookup site.index = none)) ∧
    (∀ (s : Surroundings) (args : List String) (i : Invocation),
      readArguments args = .perform i → i.task ∈ [.check, .tree, .sites] →
      runMode s i.options = .ok mode →
      (∀ text, s.files.readText i.entry = .ok text →
        ∀ digits, ¬Text.ReachesLongNumber text digits) →
      ∃ a, analyzeFile s.files mode i.entry = .ok a ∧
        ((∃ outcome, run s args = .ok outcome) ↔ ¬BreaksOff s i.task a) ∧
        (status (run s args) = 0 ↔
          AllOwned s.files mode i.entry ∧ ¬BreaksOff s i.task a) ∧
        (status (run s args) = 0 ∨ status (run s args) = 1)) := by
  constructor
  · intro unitName filename events t he
    obtain ⟨a, u, ha, htree, hsites, haccounts⟩ := exists_accounts he mode
    exact ⟨a, u, ha, htree, hsites, haccounts, haccounts.hasErrors_iff⟩
  · intro s args i hargs htask hmode hnumbers
    obtain ⟨a, ha, houtlined, hexit⟩ := exists_analyzeFile s.files mode i.entry hnumbers
    refine ⟨a, ha, ?_⟩
    rcases run_cases hargs htask hmode ha houtlined with
      ⟨hbreak, e, he⟩ | ⟨hbreak, outcome, ho, hcode⟩
    · rw [he]
      exact ⟨by simp [hbreak], by simp [status, hbreak], Or.inr rfl⟩
    · rw [ho, status, hcode, ← hexit]
      exact ⟨by simp [hbreak], by simp [hbreak], exitCode_eq_zero_or_one a⟩

/-- A stream in which a function has a target in the given column and assigns the name only
afterwards. -/
def lateBinding (column : Int) : EventStream where
  unitName := some "app"
  events :=
    [⟨.enter .moduleBody none none, some ⟨2, 1⟩⟩,
      ⟨.enter .functionBody (some "f") none, some ⟨3, 1⟩⟩,
      ⟨.mention "x" (.target .augmented) (some ⟨2, column⟩), some ⟨4, 1⟩⟩,
      ⟨.mention "x" .assignment (some ⟨3, 5⟩), some ⟨5, 1⟩⟩, ⟨.exit, some ⟨6, 1⟩⟩,
      ⟨.exit, some ⟨7, 1⟩⟩]

/-- The text of this stream. -/
def lateBindingText (column : String) : String :=
  "unit app\nenter module\nenter function f\naug x @2:" ++ column ++
    "\nbind x @3:5\nexit\nexit\n"

/-- A directory with the file of this text, where a run that chooses no mode takes the given one. -/
def withLateBinding (column : String) (mode : Mode) : Surroundings :=
  { withFile ["unit.events"] (lateBindingText column) with defaultMode := some mode.text }

/-- The analysis of this file: only the mode decides whether the target has an owner. -/
lemma exists_analyzeFile_lateBinding {digits : String} {column : Int}
    (hload : EventStream.load (withLateBinding digits .strict).files "unit.events" =
      .ok (lateBinding column)) (mode : Mode) :
    ∃ a, analyzeFile (withLateBinding digits mode).files mode "unit.events" = .ok a ∧
      Outlined a ∧
      (AllOwned (withLateBinding digits mode).files mode "unit.events" ↔ mode ≠ .strict) ∧
      ∃ d, a.diagnostics = [d] ∧ d.filename = some "unit.events" ∧ d.line = some 2 ∧
        d.column = some column := by
  have hload : EventStream.load (withLateBinding digits mode).files "unit.events" =
    .ok (lateBinding column) := hload
  have hpath : (Path.ofText "unit.events").text = "unit.events" := by decide +kernel
  obtain ⟨t, he, hsites, hfilename⟩ : ∃ t,
      ScopeTree.ofEvents (some "app") (some "unit.events") (lateBinding column).events = .ok t ∧
        t.sites = [⟨0, "x", 1, .augmented, some ⟨2, column⟩, 3⟩] ∧
        t.filename = some "unit.events" := ⟨_, rfl, rfl, rfl⟩
  obtain ⟨a, ha, hfollows⟩ := exists_analyzeEvents he mode
  have howner : a.owners.lookup 0 = if mode = .strict then none else some 1 := by
    rw [hfollows.lookup_owners]
    cases mode <;> rfl
  obtain ⟨f, hverdicts, hposition⟩ : ∃ f,
      (history (lateBinding column).events).verdicts = [(0, .failed f)] ∧
        f.site.position = some ⟨2, column⟩ := ⟨_, rfl, rfl⟩
  have hdiagnostics : a.diagnostics = [f.diagnose mode t t.filename] := by
    rw [diagnostics_analyzeEvents he ha, hverdicts]
    rfl
  have hstream : (lateBinding column).analyze mode (Path.ofText "unit.events").text = .ok a :=
    EventStream.analyze_of_analyzeEvents (hpath.symm ▸ ha)
  have houtlined : Outlined a := outlined_of_ofEvents he ha
  refine ⟨_, analyzeFile_eq hload hstream, houtlined, ?_, _, hdiagnostics, hfilename, ?_, ?_⟩
  · rw [allOwned_iff hload hstream, hpath]
    constructor
    · rintro ⟨t', he', hall⟩ rfl
      obtain rfl := Except.ok.inj (he.symm.trans he')
      have hsome := hall _ (hsites ▸ List.mem_singleton_self _)
      rw [howner] at hsome
      exact absurd hsome (by decide)
    · intro hmode
      refine ⟨t, he, fun site hsite => ?_⟩
      obtain rfl := List.mem_singleton.1 (hsites ▸ hsite)
      rw [howner, if_neg hmode]
      rfl
  · rw [Failure.diagnose, Diagnostic.at?, hposition]
    rfl
  · rw [Failure.diagnose, Diagnostic.at?, hposition]
    rfl

/-- Where the target is tolerated, the check of the file ends with 0, and with 1 where it is not. -/
theorem run_accounts_for_each_site_lateBinding :
    (∃ a u, analyzeEvents .strict (lateBinding 5).events (some "app") (some "unit.events") = .ok a ∧
      a.tree = some u ∧ a.Accounts u .strict ∧ a.hasErrors = true) ∧
    (∃ outcome, run (withLateBinding "5" .legacy) ["check", "unit.events"] = .ok outcome ∧
      outcome.exitCode = 0) ∧
    status (run (withLateBinding "5" .strict) ["check", "unit.events"]) = 1 := by
  have hload (mode : Mode) : EventStream.load (withLateBinding "5" mode).files "unit.events" =
      .ok (lateBinding 5) :=
    show EventStream.load (withLateBinding "5" .strict).files "unit.events" = _ by decide +kernel
  have hargs : readArguments ["check", "unit.events"] = .perform ⟨.check, "unit.events", {}⟩ := by
    decide +kernel
  have hmode (mode : Mode) : runMode (withLateBinding "5" mode) {} = .ok mode := by
    cases mode <;> decide +kernel
  refine ⟨?_, ?_, ?_⟩
  · obtain ⟨t, he, hsites⟩ : ∃ t,
        ScopeTree.ofEvents (some "app") (some "unit.events") (lateBinding 5).events = .ok t ∧
          t.sites = [⟨0, "x", 1, .augmented, some ⟨2, 5⟩, 3⟩] := ⟨_, rfl, rfl⟩
    obtain ⟨a, u, ha, htree, husites, haccounts, herrors⟩ :=
      (run_accounts_for_each_site .strict).1 _ _ _ t he
    obtain ⟨a', ha', hfollows⟩ := exists_analyzeEvents he .strict
    obtain rfl := Except.ok.inj (ha.symm.trans ha')
    refine ⟨a, u, ha, htree, haccounts,
      herrors.2 ⟨_, husites ▸ hsites ▸ List.mem_singleton_self _, ?_⟩⟩
    rw [hfollows.lookup_owners]
    rfl
  · obtain ⟨a, ha, houtcome, hzero, -⟩ := (run_accounts_for_each_site .legacy).2 _ _ _ hargs
      (by simp) (hmode .legacy) (EventStream.not_reachesLongNumber_of_load (hload .legacy))
    obtain ⟨a', ha', -, hall, d, hd, -, -, hcolumn⟩ :=
      exists_analyzeFile_lateBinding (hload .strict) .legacy
    obtain rfl := Except.ok.inj (ha.symm.trans ha')
    have hgoes : ¬BreaksOff (withLateBinding "5" .legacy) .check a := by
      rintro (⟨hmem, -, -, column, -, -, -, -, -, hcolumn', -, -, hfar⟩ | ⟨htask, -⟩)
      · rw [hd, List.mem_singleton] at hmem
        rw [hmem, hcolumn] at hcolumn'
        obtain rfl := Option.some.inj hcolumn'
        exact absurd hfar (by decide)
      · nomatch htask
    obtain ⟨outcome, ho⟩ := houtcome.2 hgoes
    have hexit := hzero.2 ⟨hall.2 (by decide), hgoes⟩
    rw [ho] at hexit
    exact ⟨outcome, ho, hexit⟩
  · obtain ⟨a, -, -, hzero, hone⟩ := (run_accounts_for_each_site .strict).2 _ _ _ hargs
      (by simp) (hmode .strict) (EventStream.not_reachesLongNumber_of_load (hload .strict))
    obtain ⟨a', -, -, hall, -⟩ := exists_analyzeFile_lateBinding (hload .strict) .strict
    exact hone.resolve_left fun hexit => hall.1 (hzero.1 hexit).1 rfl

/-- Where the target is tolerated, but stands in a column that no text reaches, the check of the
file ends with 1, though the file can be read and every target has an owner. -/
theorem run_breaks_off_of_farTarget :
    (∀ text, (withLateBinding "99999999999999999999" .warn).files.readText "unit.events" =
      .ok text → ∀ digits, ¬Text.ReachesLongNumber text digits) ∧
    AllOwned (withLateBinding "99999999999999999999" .warn).files .warn "unit.events" ∧
    status (run (withLateBinding "99999999999999999999" .warn) ["check", "unit.events"]) = 1 := by
  have hload : EventStream.load (withLateBinding "99999999999999999999" .warn).files
      "unit.events" = .ok (lateBinding 99999999999999999999) := by decide +kernel
  have hargs : readArguments ["check", "unit.events"] = .perform ⟨.check, "unit.events", {}⟩ := by
    decide +kernel
  have hmode : runMode (withLateBinding "99999999999999999999" .warn) {} = .ok .warn := by
    decide +kernel
  have htext : (withLateBinding "99999999999999999999" .warn).files.readText "unit.events" =
      .ok (lateBindingText "99999999999999999999") := by decide +kernel
  have hline : lineNumbered? (lateBindingText "99999999999999999999") 2 = some "enter module" := by
    decide +kernel
  obtain ⟨a, ha, houtlined, hall, d, hd, hfilename, hnumber, hcolumn⟩ :=
    exists_analyzeFile_lateBinding hload .warn
  have hbreaks : BreaksOff (withLateBinding "99999999999999999999" .warn) .check a :=
    .excerpt (hd ▸ List.mem_singleton_self d) ⟨_, _, _, _, _, hfilename, by decide, hnumber,
      hcolumn, htext, hline, by decide⟩
  refine ⟨EventStream.not_reachesLongNumber_of_load hload, hall.2 (by decide), ?_⟩
  rcases run_cases hargs (by simp) hmode ha houtlined with ⟨-, e, he⟩ | ⟨hgoes, -⟩
  · rw [he]
    rfl
  · exact absurd hbreaks hgoes

end Command

end TargetScope
