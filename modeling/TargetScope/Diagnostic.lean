import TargetScope.Path
import TargetScope.Position
import TargetScope.Text.BracketedCode

/-!
# Diagnostics

A diagnostic tells the user what is wrong and where.  Its message begins with a code in brackets
that names the check; the codes fall into three families.
-/

namespace TargetScope

/-- How serious a diagnostic is. -/
inductive Severity where
  /-- The unit is not in order. -/
  | error
  /-- The unit is in order, but not for long. -/
  | warning
  /-- Any other word that a caller has for it. -/
  | other (word : String)
deriving DecidableEq, Repr

namespace Severity

/-- The word for a severity. -/
def text : Severity → String
  | error => "error"
  | warning => "warning"
  | other word => word

/-- The severity for a word. -/
def ofText (word : String) : Severity :=
  if word = "error" then error else if word = "warning" then warning else other word

@[simp] theorem text_ofText (word : String) : (ofText word).text = word := by
  unfold ofText
  split
  · simp [text, *]
  · split <;> simp [text, *]

end Severity

/-- A message to the user. -/
structure Diagnostic where
  /-- How serious it is. -/
  severity : Severity
  /-- What is wrong, with the code of the check in brackets. -/
  message : String
  /-- The unit in which it is wrong. -/
  unitName : Option String := none
  /-- The file in which it is wrong. -/
  filename : Option String := none
  /-- The line. -/
  line : Option Int := none
  /-- The column. -/
  column : Option Int := none
  /-- The kind of failure, where a use site failed. -/
  category : Option String := none
  /-- The target, where a use site failed. -/
  name : Option String := none
deriving DecidableEq, Repr

namespace Diagnostic

/-- The codes of the checks, by families. -/
def codeFamilies : List (String × List String) :=
  [("EVT", ["EVT-0010", "EVT-0020", "EVT-0030", "EVT-0040", "EVT-0050", "EVT-0060", "EVT-0070"]),
    ("DRV", ["DRV-0010", "DRV-0020", "DRV-0021", "DRV-0022", "DRV-0023", "DRV-0024", "DRV-0025"]),
    ("RES", ["RES-0110", "RES-0111", "RES-0120", "RES-0121", "RES-0130"])]

/-- The code of a diagnostic: the first one in brackets in its message. -/
def code (d : Diagnostic) : Option String :=
  Text.findCode? Text.isFamily d.message.toList

/-- The place of a diagnostic in its file, where both line and column are known. -/
def position (d : Diagnostic) : Option Position :=
  match d.line, d.column with
  | some line, some column => some ⟨line, column⟩
  | _, _ => none

/-- The diagnostic at a place in its file. -/
def at? (d : Diagnostic) (position : Option Position) : Diagnostic :=
  { d with line := position.map Position.line, column := position.map Position.column }

/-- The line and what belongs to it: the column, and the unit in parentheses. -/
def placeText (d : Diagnostic) : String :=
  match d.line with
  | none => ""
  | some line =>
    ":" ++ toString line ++ (match d.column with
      | some column => ":" ++ toString column
      | none => "") ++ (match d.unitName with
      | some unit => "(" ++ unit ++ ")"
      | none => "")

/-- The place of a diagnostic for a reader in the given directory: the absolute name of the file,
and the line with what belongs to it. -/
def locationText (d : Diagnostic) (directory : String) : String :=
  (match d.filename with
    | some filename => Path.absolute directory filename
    | none => "") ++ d.placeText

/-- The line that is printed for a diagnostic in the given directory. -/
def format (d : Diagnostic) (directory : String) : String :=
  let location := d.locationText directory
  (if location = "" then "" else location ++ ": ") ++ d.severity.text ++ ": " ++ d.message

end Diagnostic

end TargetScope
