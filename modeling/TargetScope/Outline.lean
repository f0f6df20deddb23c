import TargetScope.Analysis

/-!
# Outlines

An outline is the text of a scope tree for a reader.  Each scope has a line of its own; below it
stand its bindings, sorted by name, its use sites in the order they were met, and the scopes
inside it, indented by one step more.  Where the owners and the diagnostics of an analysis are at
hand, they are noted beside the use sites.

The lines are made by going into the scopes, and there is room for so many scopes inside each other
and no more: a tree that goes deeper has no outline.
-/

namespace TargetScope

/-- What an analysis found out about the use sites, by the places of the sites. -/
structure Annotations where
  /-- The owners of the targets. -/
  owners : List (Nat × Nat) := []
  /-- The diagnostics. -/
  diagnostics : List (Nat × Diagnostic) := []

/-- What is noted in the outline of an analysis. -/
def Analysis.annotations (a : Analysis) : Annotations :=
  { owners := a.owners, diagnostics := a.siteDiagnostics }

namespace Outline

/-- One step of indentation. -/
def step : String := "  "

/-- The blanks before a line at the given depth. -/
def indentation (depth : Nat) : String :=
  String.join (List.replicate depth step)

/-- The place in the source, where it is known. -/
def placeNote (position : Option Position) : String :=
  match position with
  | some p => " @" ++ p.text
  | none => ""

/-- The note about the owner of a name, where it is known. -/
def ownerNote (t : ScopeTree) (owner : Option Nat) : String :=
  match owner with
  | some owner => " -> " ++ t.describe owner
  | none => ""

/-- The line of a binding. -/
def bindingLine (t : ScopeTree) (b : Binding) : String :=
  b.name ++ ": " ++ b.role.text ++ placeNote b.declaredAt ++ ownerNote t b.owner
    ++ (match b.promotedFrom with
      | some role => " (promoted from " ++ role.text ++ ")"
      | none => "")
    ++ (if b.implicit then " (implicit)" else "")

/-- The sign of an operator. -/
def operatorSign : Operator → String
  | .augmented => "+="
  | .inline => ":="

/-- The line of a use site. -/
def siteLine (t : ScopeTree) (notes : Annotations) (site : UseSite) : String :=
  operatorSign site.operator ++ " " ++ site.name ++ placeNote site.position
    ++ ownerNote t (notes.owners.lookup site.index)
    ++ (match notes.diagnostics.lookup site.index with
      | some d => " [" ++ d.severity.text ++ ": " ++ d.code.getD "None" ++ "]"
      | none => "")

/-- The line of a scope. -/
def scopeLine (s : Scope) : String :=
  s.describe ++ " #" ++ toString s.index ++ placeNote s.position

/-- The bindings of a scope, sorted by name in the order of code points. -/
def sortedBindings (s : Scope) : List Binding :=
  s.bindings.mergeSort fun a b => a.name ≤ b.name

/-- Some lines under a title, or nothing where there are none. -/
def titled (title : String) (lines : List String) : List String :=
  match lines with
  | [] => []
  | _ => title :: lines.map (step ++ ·)

/-- The lines of a scope itself, without the scopes inside it. -/
def ownLines (t : ScopeTree) (notes : Annotations) (s : Scope) : List String :=
  scopeLine s ::
    (titled "bindings:" ((sortedBindings s).map (bindingLine t)) ++
      titled "uses:" ((t.sitesIn s).map (siteLine t notes))).map (step ++ ·)

/-- The lines of the scope `s` at the given depth and of the scopes inside it, or nothing where the
scopes go deeper than there is room for. -/
def scopeLines (t : ScopeTree) (notes : Annotations) :
    (room depth : Nat) → Scope → Option (List String)
  | 0, _, _ => none
  | room + 1, depth, s => do
    let inner ← s.children.mapM fun i =>
      (t.scope? i).elim (some []) fun child => scopeLines t notes room (depth + 1) child
    return (ownLines t notes s).map (indentation depth ++ ·) ++ inner.flatten

/-- The lines of a tree. -/
def treeLines (t : ScopeTree) (notes : Annotations) (room : Nat) : Option (List String) :=
  match t.scope? ScopeTree.rootIndex with
  | some root => scopeLines t notes room 0 root
  | none => some ["<empty>"]

/-- The text of a tree. -/
def text (t : ScopeTree) (notes : Annotations) (room : Nat) : Option String :=
  (treeLines t notes room).map "\n".intercalate

end Outline

end TargetScope
