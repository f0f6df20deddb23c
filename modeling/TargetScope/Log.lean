/-!
# Log entries

What a run has to say about itself is a list of entries, each with a level.  The settings of a run
decide which entries are shown, and whether with the time and the level in front.
-/

namespace TargetScope.Log

/-- The levels, from the most to the least important. -/
inductive Level where
  /-- Nothing of any interest is shown at this level. -/
  | silent
  /-- Errors. -/
  | error
  /-- Warnings. -/
  | warning
  /-- The progress of a run. -/
  | info
  /-- The details of a run. -/
  | debug
deriving DecidableEq, Repr

namespace Level

/-- The place of a level in their order. -/
def rank : Level → Nat
  | silent => 0
  | error => 3
  | warning => 6
  | info => 10
  | debug => 30

/-- The word for a level, where it has one. -/
def tag? : Level → Option String
  | silent => none
  | error => some "ERROR"
  | warning => some "WARNING"
  | info => some "INFO"
  | debug => some "DEBUG"

end Level

/-- Something to say. -/
structure Entry where
  /-- The level. -/
  level : Level
  /-- The message. -/
  message : String
deriving DecidableEq, Repr

/-- Which entries are shown, and how. -/
structure Settings where
  /-- Entries of a higher rank than this level are not shown. -/
  level : Level := .warning
  /-- The time and the level are put in front of a message. -/
  rich : Bool := false
deriving DecidableEq, Repr

namespace Entry

/-- An error. -/
def error (message : String) : Entry := ⟨.error, message⟩

/-- A note on the progress of a run. -/
def info (message : String) : Entry := ⟨.info, message⟩

/-- A detail of a run. -/
def debug (message : String) : Entry := ⟨.debug, message⟩

/-- The note that a stage of a run begins, with the name of the unit if it has one that is not
empty. -/
def stage (name : String) (unit : Option String) : Entry :=
  match unit.filter (· ≠ "") with
  | some unit => info (name ++ " unit '" ++ unit ++ "'")
  | none => info (name ++ "...")

/-- What is put in front of the message of an entry at the given time. -/
def lead (e : Entry) (time : String) : String :=
  match e.level.tag? with
  | some tag => time ++ " [" ++ tag ++ "] "
  | none => ""

/-- What is printed for an entry at the given time.  Without settings every message is printed as it
is. -/
def render (e : Entry) (settings : Option Settings) (time : String) : String :=
  match settings with
  | none => e.message ++ "\n"
  | some s =>
    if s.level.rank < e.level.rank then ""
    else (if s.rich then e.lead time else "") ++ e.message ++ "\n"

end Entry

/-- What is printed for some entries at the given time. -/
def render (entries : List Entry) (settings : Option Settings) (time : String) : String :=
  String.join (entries.map fun e => e.render settings time)

end TargetScope.Log
