import TargetScope.Text.Blank

/-!
# Compatibility modes

The rules of resolution are the same in every mode.  A mode says how a target without a preceding
binding is received: as a warning, or as an error.
-/

namespace TargetScope

/-- The ways to receive a target without a preceding binding. -/
inductive Mode where
  /-- A warning; the target is local to the function. -/
  | legacy
  /-- A warning that announces the error. -/
  | warn
  /-- An error. -/
  | strict
deriving DecidableEq, Repr

namespace Mode

/-- The modes, in the order in which they are listed. -/
def all : List Mode := [legacy, warn, strict]

/-- The word for a mode. -/
def text : Mode → String
  | legacy => "legacy"
  | warn => "warn"
  | strict => "strict"

/-- The mode for which exactly the given word stands. -/
def ofText? (word : String) : Option Mode :=
  all.find? fun m => m.text = word

/-- Reads a mode.  Blanks around the word and the case of its letters do not matter; no letter
outside ASCII stands for a letter of one of the words. -/
def parse? (text : String) : Option Mode :=
  ofText? (String.ofList ((Text.strip text.toList).map Char.toLower))

/-- The message about a text that names no mode. -/
def unknownMessage (text : String) : String :=
  "unknown compatibility mode '" ++ text ++ "' (expected one of: "
    ++ ", ".intercalate (all.map Mode.text) ++ ")"

@[simp] theorem ofText?_text (m : Mode) : ofText? m.text = some m := by
  cases m <;> decide

end Mode

end TargetScope
