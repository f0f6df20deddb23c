import TargetScope.Diagnostic
import TargetScope.FileSource
import TargetScope.Log

/-!
# Excerpts

A diagnostic is shown with the line of the file to which it points, behind the number of the line,
and below it with a row of carets under the target, or under one character where no target is known.
A diagnostic whose file or line cannot be had is shown alone.

The carets stand behind as many blanks as the column asks for, and a column can be any number.
Where the blanks would be longer than a text can be, there is no excerpt.
-/

namespace TargetScope

open Text

/-- As many blanks as given. -/
def blankRun (n : Nat) : String :=
  String.ofList (List.replicate n ' ')

/-- The width of the column of line numbers: five, or more for a number that needs more. -/
def gutterWidth (line : Int) : Nat :=
  max 5 (toString line).length

/-- What stands between the column of line numbers and the text. -/
def gutterRule : String := " | "

/-- The line of the file, behind its number. -/
def sourceRow (line : Int) (source : String) : String :=
  let number := toString line
  blankRun (gutterWidth line - number.length) ++ number ++ gutterRule ++ source

/-- The carets below the line of the file, from the given column on, as many as the target has
characters, or nothing where the blanks before them would be longer than the longest text. -/
def caretRow (longest : Nat) (line column : Int) (name : Option String) : Option String :=
  let before := (max 1 column).toNat - 1
  if before ≤ longest then
    some (blankRun (gutterWidth line) ++ gutterRule ++ blankRun before
      ++ String.ofList (List.replicate (max 1 (name.getD "").length) '^'))
  else none

/-- The line of a text with the given number, counted from one. -/
def lineNumbered? (text : String) (line : Int) : Option String :=
  if 1 ≤ line then ((lines text.toList)[line.toNat - 1]?).map String.ofList else none

namespace Diagnostic

/-- The rows below a diagnostic: the line of the file and, where the column is known, the carets. -/
def excerptRows (d : Diagnostic) (files : FileSource) (longest : Nat) : Option (List String) :=
  match d.filename, d.line with
  | some filename, some line =>
    if filename = "" then some []
    else
      match files.readText filename with
      | .error _ => some []
      | .ok text =>
        match lineNumbered? text line with
        | none => some []
        | some source =>
          match d.column with
          | some column =>
            (caretRow longest line column d.name).map fun carets => [sourceRow line source, carets]
          | none => some [sourceRow line source]
  | _, _ => some []

/-- The entries that show a diagnostic to a reader in the given directory. -/
def entries (d : Diagnostic) (files : FileSource) (longest : Nat) (directory : String) :
    Option (List Log.Entry) :=
  (d.excerptRows files longest).map fun rows => (d.format directory :: rows).map .error

end Diagnostic

end TargetScope
