import TargetScope.Diagnostic
import TargetScope.InternalError
import TargetScope.Mode
import TargetScope.Verdict

/-!
# Reporting verdicts

Each failed use site gets a diagnostic.  A target without a preceding binding is a warning in the
modes `legacy` and `warn`, and the site keeps the function as its owner; in the mode `strict` it
is an error.  Every other failure is an error in every mode.
-/

namespace TargetScope

/-! ## Messages -/

/-- The phrase for the role that forbids a target. -/
def BindingRole.blockingPhrase : Option BindingRole → String
  | some .parameter => "a parameter"
  | some .iteration => "an iteration variable"
  | _ => "a blocking binding"

namespace Failure

/-- The code of a failure. -/
def code (f : Failure) : String :=
  match f.reason, f.site.operator with
  | .missingBinding, .augmented => "RES-0110"
  | .missingBinding, .inline => "RES-0111"
  | .blockScopeShadow, _ => "RES-0120"
  | .transparentScopeShadow, _ => "RES-0121"
  | .classBody, _ => "RES-0130"

/-- How serious a failure is in the given mode. -/
def severity (f : Failure) (mode : Mode) : Severity :=
  if f.kind = .targetName ∧ mode ≠ .strict then .warning else .error

/-- What follows for a target without a preceding binding, where it is tolerated: a note that it
will be an error, or that it is local to the scope of the given description. -/
def toleranceNote (f : Failure) (mode : Mode) (scope : String) : String :=
  if f.severity mode = .warning then
    if mode = .warn then "; this is deprecated and will be an error in strict mode"
    else "; '" ++ f.site.name ++ "' is treated as local to " ++ scope
  else ""

/-- The message of a failure without its code. -/
def detail (f : Failure) (mode : Mode) (t : ScopeTree) : String :=
  let name := f.site.name
  let op := f.site.operator.describe
  let scope := t.describe f.scope
  match f.reason with
  | .missingBinding =>
    (match f.site.operator with
      | .inline =>
        op ++ " to '" ++ name ++ "' in " ++ scope
          ++ " requires an existing binding or declaration of '" ++ name ++ "'"
      | .augmented =>
        op ++ " to '" ++ name ++ "' in " ++ scope ++ " has no preceding binding or declaration")
      ++ f.toleranceNote mode scope
  | .blockScopeShadow =>
    "cannot use " ++ op ++ " on '" ++ name ++ "': it is " ++ BindingRole.blockingPhrase f.blocking
      ++ " of " ++ scope
  | .transparentScopeShadow =>
    "cannot use " ++ op ++ " on '" ++ name ++ "': it is " ++ BindingRole.blockingPhrase f.blocking
      ++ " of " ++ (if f.site.scope = f.scope then "" else "enclosing ") ++ scope
  | .classBody =>
    op ++ " to '" ++ name ++ "' inside " ++ t.describe f.site.scope.toNat
      ++ " cannot target the body of " ++ scope

/-- The message of a failure: its code in brackets, and what is wrong. -/
def message (f : Failure) (mode : Mode) (t : ScopeTree) : String :=
  "[" ++ f.code ++ "] " ++ f.detail mode t

/-- The diagnostic for a failure in a tree. -/
def diagnose (f : Failure) (mode : Mode) (t : ScopeTree) (filename : Option String) : Diagnostic :=
  Diagnostic.at?
    { severity := f.severity mode, message := f.message mode t, unitName := t.unitName, filename,
      category := some f.kind.text, name := some f.site.name }
    f.site.position

end Failure

/-! ## Reports -/

/-- The report on the use sites of a tree. -/
structure Report where
  /-- The diagnostics, in program order. -/
  diagnostics : List Diagnostic := []
  /-- The owners of the targets that have one, each with the place of its site. -/
  owners : List (Nat × Nat) := []
  /-- The diagnostics once more, each with the place of its site. -/
  siteDiagnostics : List (Nat × Diagnostic) := []
deriving DecidableEq, Repr

namespace Report

/-- The report with the verdict on one more site. -/
def add (r : Report) (mode : Mode) (t : ScopeTree) (filename : Option String) (site : UseSite) :
    Verdict → Report
  | .bound owner => { r with owners := r.owners ++ [(site.index, owner)] }
  | .failed f =>
    let d := f.diagnose mode t filename
    { diagnostics := r.diagnostics ++ [d]
      owners := match d.severity, f.fallback with
        | .warning, some owner => r.owners ++ [(site.index, owner)]
        | _, _ => r.owners
      siteDiagnostics := r.siteDiagnostics ++ [(site.index, d)] }

/-- The report with the verdicts on some more sites, up to the first that has none. -/
def addSites (mode : Mode) (t : ScopeTree) (filename : Option String) (verdicts : Verdicts) :
    Report → List UseSite → Report × Option InternalError
  | r, [] => (r, none)
  | r, site :: rest =>
    match verdicts.lookup site.index with
    | none =>
      (r, some { breach := .unresolved site.name,
                 location := some { filename, position := site.position } })
    | some verdict => addSites mode t filename verdicts (r.add mode t filename site verdict) rest

end Report

/-- Reports the verdicts on the use sites of a tree in program order.  The diagnostics are about the
given file, or about the file of the tree if none is given.  A site without a verdict stops the
report. -/
def ScopeTree.report (t : ScopeTree) (mode : Mode) (filename : Option String)
    (verdicts : Verdicts) : Report × Option InternalError :=
  Report.addSites mode t (filename.or t.filename) verdicts {} t.sitesInOrder

end TargetScope
