import TargetScope.Event.Stream
import TargetScope.FileSource
import TargetScope.Log
import TargetScope.OuterDeclaration
import TargetScope.Report
import TargetScope.Resolution
import TargetScope.TreeBuilder

/-!
# Analyses

An analysis of a compilation unit builds its scope tree, settles the outer declarations, resolves
the use sites and reports the verdicts.  It may begin with an event file, with the text of one,
with events, or with a tree.  Mistakes in the unit end in diagnostics; an analysis without a tree
has exactly one.
-/

namespace TargetScope

/-- All that is known about a compilation unit. -/
structure Analysis where
  /-- The scope tree, where there is one. -/
  tree : Option ScopeTree := none
  /-- The settlements of the outer declarations. -/
  settlements : List Settlement := []
  /-- The verdicts on the use sites. -/
  verdicts : Verdicts := []
  /-- The owners of the targets that have one, each with the place of its site. -/
  owners : List (Nat × Nat) := []
  /-- The diagnostics of the use sites that have one, each with the place of its site. -/
  siteDiagnostics : List (Nat × Diagnostic) := []
  /-- All diagnostics. -/
  diagnostics : List Diagnostic := []
  /-- What the analysis has to say about its progress. -/
  entries : List Log.Entry := []
deriving DecidableEq, Repr

/-- The reasons why an analysis has no result at all. -/
inductive AnalysisError where
  /-- A number in the event file has too many digits. -/
  | numberTooLong (digits : Nat)
  /-- A stage found an expectation broken. -/
  | internal (error : InternalError)
deriving DecidableEq, Repr

namespace Analysis

/-- The analysis has a diagnostic that is an error. -/
def hasErrors (a : Analysis) : Bool :=
  a.diagnostics.any fun d => d.severity = .error

/-- The analysis has a diagnostic that is a warning. -/
def hasWarnings (a : Analysis) : Bool :=
  a.diagnostics.any fun d => d.severity = .warning

/-- The use sites. -/
def sites (a : Analysis) : List UseSite :=
  match a.tree with
  | some t => t.sites
  | none => []

/-- The scope that owns the target of a use site. -/
def ownerOf? (a : Analysis) (site : UseSite) : Option Scope :=
  match a.owners.lookup site.index, a.tree with
  | some owner, some t => t.scope? owner
  | _, _ => none

/-- The diagnostic of a use site. -/
def diagnosticOf? (a : Analysis) (site : UseSite) : Option Diagnostic :=
  a.siteDiagnostics.lookup site.index

/-- The use sites whose target is the given name. -/
def sitesNamed (a : Analysis) (name : String) : List UseSite :=
  a.sites.filter fun u => u.name = name

/-- The analysis with some entries before its own. -/
def announce (entries : List Log.Entry) (a : Analysis) : Analysis :=
  { a with entries := entries ++ a.entries }

/-- The analysis that consists of one diagnostic. -/
def ofDiagnostic (d : Diagnostic) : Analysis :=
  { diagnostics := [d] }

end Analysis

/-! ## What is said about the stages -/

/-- The entry about a settled declaration of a tree. -/
def Settlement.entry (s : Settlement) (t : ScopeTree) : Log.Entry :=
  .debug ("Promoted '" ++ s.name ++ "' in " ++ t.describe s.scope ++ " -> " ++ t.describe s.owner
    ++ (if s.deferred then " (deferred)" else "")
    ++ (match s.promotedFrom with
      | some role => " (promoted from " ++ role.text ++ ")"
      | none => ""))

/-- The outcome of a verdict, in short. -/
def Verdict.summary (v : Verdict) (t : ScopeTree) : String :=
  match v with
  | .bound owner => t.describe owner
  | .failed f => f.kind.text

/-- The entry about the verdict on a use site of a tree. -/
def UseSite.entry (site : UseSite) (v : Verdict) (t : ScopeTree) : Log.Entry :=
  .debug ("'" ++ site.name ++ "' @" ++ (site.position.map Position.text).getD "None" ++ " -> "
    ++ v.summary t)

/-- The entries about an analysis of a tree: from its outer declarations to its diagnostics. -/
def analysisEntries (t : ScopeTree) (settlements : List Settlement) (verdicts : Verdicts)
    (diagnostics : List Diagnostic) : List Log.Entry :=
  .stage "Promoting outer declarations" t.unitName ::
    settlements.map (·.entry t) ++
  [.debug ("Promotion pass settled " ++ toString settlements.length ++ " declaration(s)"),
    .stage "Resolving assignment targets" t.unitName] ++
  (t.sitesInOrder.zip verdicts).map (fun p => p.1.entry p.2.2 t) ++
  [.stage "Reporting diagnostics" t.unitName,
    .debug ("Resolution produced " ++ toString diagnostics.length ++ " diagnostic(s)")]

/-! ## Analysing -/

/-- Analyses a tree.  The result is the tree with all that the analysis adds to it, and the
analysis, unless a stage found an expectation broken. -/
def ScopeTree.analyze (t : ScopeTree) (mode : Mode) : ScopeTree × Except InternalError Analysis :=
  let settled := t.settleOuterDeclarations
  match settled.settlements.find? fun s => t.size ≤ s.owner with
  | some s => (settled.tree, .error { breach := .ownerOutOfRange s.owner })
  | none =>
    let resolved := settled.tree.resolve
    match resolved.stopped with
    | some e => (resolved.tree, .error e)
    | none =>
      match resolved.tree.report mode none resolved.verdicts with
      | (_, some e) => (resolved.tree, .error e)
      | (report, none) =>
        (resolved.tree, .ok
          { tree := some resolved.tree
            settlements := settled.settlements
            verdicts := resolved.verdicts
            owners := report.owners
            siteDiagnostics := report.siteDiagnostics
            diagnostics := report.diagnostics
            entries := analysisEntries resolved.tree settled.settlements resolved.verdicts
              report.diagnostics })

/-- The diagnostic about events that describe no scope tree. -/
def StructureError.diagnostic (e : StructureError) (unitName filename : Option String) :
    Diagnostic :=
  Diagnostic.at? { severity := .error, message := e.fault.message, unitName, filename } e.origin

/-- The diagnostic about a fault in an event file. -/
def SyntaxError.diagnostic (e : SyntaxError) (filename : String) : Diagnostic where
  severity := .error
  message := "syntax: " ++ e.fault.message
  filename := some filename
  line := some e.line
  column := some e.column

/-- The message about an event file that cannot be read. -/
def FileFault.message (fault : FileFault) (path : String) : String :=
  "[DRV-0010] cannot read " ++ path ++ ": " ++ fault.reason

/-- Analyses the events of a unit, whose positions refer to the given file. -/
def analyzeEvents (mode : Mode) (events : List Event) (unitName filename : Option String) :
    Except InternalError Analysis :=
  let opening := .stage "Classifying bindings" unitName
  match ScopeTree.ofEvents unitName filename events with
  | .error e => .ok ((Analysis.ofDiagnostic (e.diagnostic unitName filename)).announce [opening])
  | .ok t =>
    let counts := .debug ("Scope tree has " ++ toString t.size ++ " scope(s) and "
      ++ toString t.sites.length ++ " use site(s)")
    match (t.analyze mode).2 with
    | .ok a => .ok (a.announce [opening, counts])
    | .error e => .error e

/-- Analyses an event stream that was read from the given file.  The positions refer to the source
file that the stream names, or else to the event file itself. -/
def EventStream.analyze (s : EventStream) (mode : Mode) (filename : String) :
    Except AnalysisError Analysis :=
  match analyzeEvents mode s.events s.unitName (s.source.or (some filename)) with
  | .ok a => .ok a
  | .error e => .error (.internal e)

/-- The name that stands for the file of a text that comes from none. -/
def unnamedInput : String := "<input>"

/-- Analyses the text of an event file of the given name. -/
def analyzeText (mode : Mode) (text filename : String) : Except AnalysisError Analysis :=
  match EventStream.read text with
  | .ok s => s.analyze mode filename
  | .error (.malformed e) => .ok (Analysis.ofDiagnostic (e.diagnostic filename))
  | .error (.numberTooLong digits) => .error (.numberTooLong digits)

/-! ## Event files -/

/-- The reasons why no event stream can be had from a file. -/
inductive LoadError where
  /-- The file cannot be read. -/
  | unreadable (fault : FileFault)
  /-- The file holds no event stream. -/
  | unread (error : ReadError)
deriving DecidableEq, Repr

/-- The entry about the reading of an event file. -/
def loadingEntry (path : String) : Log.Entry :=
  .debug ("Reading event file '" ++ (Path.ofText path).text ++ "'")

/-- The name of the source file as seen from where the event file is: a relative name in an event
file starts from the directory of that file. -/
def sourceFrom (path source : String) : String :=
  if (Path.ofText source).isAbsolute then source
  else ((Path.ofText path).parent.join (Path.ofText source)).text

/-- Reads the event stream of a file. -/
def EventStream.load (files : FileSource) (path : String) : Except LoadError EventStream :=
  match files.readText path with
  | .error fault => .error (.unreadable fault)
  | .ok text =>
    match EventStream.read text with
    | .error e => .error (.unread e)
    | .ok s => .ok { s with source := s.source.map (sourceFrom path) }

/-- Analyses an event file. -/
def analyzeFile (files : FileSource) (mode : Mode) (path : String) :
    Except AnalysisError Analysis :=
  let opening := [.info ("Starting analysis of '" ++ path ++ "'"), loadingEntry path]
  let filename := (Path.ofText path).text
  match EventStream.load files path with
  | .ok s => (s.analyze mode filename).map (Analysis.announce opening)
  | .error (.unreadable fault) =>
    .ok ((Analysis.ofDiagnostic { severity := .error, message := fault.message path }).announce
      opening)
  | .error (.unread (.malformed e)) =>
    .ok ((Analysis.ofDiagnostic (e.diagnostic filename)).announce opening)
  | .error (.unread (.numberTooLong digits)) => .error (.numberTooLong digits)

end TargetScope
