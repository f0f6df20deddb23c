import TargetScope.Command.Arguments
import TargetScope.Command.Excerpt
import TargetScope.Outline

/-!
# Running a command

A command reads an event file and writes what its task asks for.  Diagnostics and notes on the
progress go to the error output.  The command ends with 0 if all is in order, with 1 if the file
cannot be read or has errors, and with 2 if the command line or the mode cannot be understood.

A run breaks off where it meets one of its limits: a number has too many digits, a row of carets
would be longer than a text can be, or scopes stand inside each other deeper than an outline can go.
The exit code is 1 then, whatever has been found out about the file.
-/

namespace TargetScope.Command

/-- What a command finds around it. -/
structure Surroundings where
  /-- The files. -/
  files : FileSource
  /-- The absolute path of the working directory. -/
  directory : String
  /-- The time, as it is written in front of messages. -/
  time : String
  /-- The name of the mode for command lines that choose none. -/
  defaultMode : Option String := none
  /-- The number of characters that a text can have. -/
  longest : Nat
  /-- The number of scopes inside each other that an outline has room for. -/
  nesting : Nat
  /-- Each file fits into a text. -/
  size_le : ∀ {path : String} {bytes : ByteArray}, files path = .ok bytes → bytes.size ≤ longest

/-- What a command leaves behind. -/
structure Outcome where
  /-- The exit code. -/
  exitCode : Nat
  /-- What was written to the standard output. -/
  output : String := ""
  /-- What was written to the error output. -/
  errors : String := ""
deriving DecidableEq, Repr

/-- The reasons why a run breaks off. -/
inductive RunError where
  /-- A number in the event file has too many digits. -/
  | numberTooLong (digits : Nat)
  /-- The carets of an excerpt stand farther to the right than a text can go. -/
  | rowTooLong
  /-- The scopes go deeper than an outline can. -/
  | nestedTooDeep
deriving DecidableEq, Repr

/-- The text of a reason to break off. -/
def RunError.message : RunError → String
  | numberTooLong digits => numberTooLongMessage digits
  | rowTooLong => "a row below a diagnostic is longer than a text can be"
  | nestedTooDeep => "the scopes go deeper than an outline can"

/-- The exit code of a run. -/
def status : Except RunError Outcome → Nat
  | .ok outcome => outcome.exitCode
  | .error _ => 1

namespace Options

/-- Which messages are shown, and how. -/
def logSettings (o : Options) : Log.Settings where
  level := if 3 ≤ o.verbosity then .debug else if 1 ≤ o.verbosity then .info else .warning
  rich := o.rich

end Options

/-- The mode for command lines that choose none: the one that is named, or `warn` if none is.  The
result is the message about a name that is not that of a mode. -/
def namedMode (name : Option String) : Except String Mode :=
  match name.filter (· ≠ "") with
  | none => .ok .warn
  | some name =>
    match Mode.parse? name with
    | some m => .ok m
    | none => .error (Mode.unknownMessage name)

/-- A text with a line feed at the end of each line. -/
def unlines (lines : List String) : String :=
  String.join (lines.map (· ++ "\n"))

/-- The entries that show the diagnostics of an analysis. -/
def diagnosticEntries (a : Analysis) (s : Surroundings) : Except RunError (List Log.Entry) :=
  match a.diagnostics.mapM fun d => d.entries s.files s.longest s.directory with
  | some entries => .ok entries.flatten
  | none => .error .rowTooLong

/-- The exit code of an analysis. -/
def exitCode (a : Analysis) : Nat :=
  if a.tree.isNone || a.hasErrors then 1 else 0

/-- The entry that sums up the check of the file at a path. -/
def checkedEntry (a : Analysis) (path : String) : Log.Entry :=
  .info ("Checked " ++ toString a.sites.length ++ " target(s) in '" ++ path ++ "': "
    ++ toString (a.diagnostics.countP fun d => d.severity = .error) ++ " error(s), "
    ++ toString (a.diagnostics.countP fun d => d.severity = .warning) ++ " warning(s)")

/-- The lines that the task writes about an analysis, where an outline has room for as many scopes
inside each other as given. -/
def taskLines (task : Task) (a : Analysis) (nesting : Nat) : Except RunError (List String) :=
  match task, a.tree with
  | .tree, some t =>
    match Outline.text t a.annotations nesting with
    | some text => .ok [text]
    | none => .error .nestedTooDeep
  | .sites, some t => .ok (t.sites.map fun site =>
      (match t.scopeAt? site.scope with
        | some scope => scope.describe
        | none => "") ++ ": " ++ Outline.siteLine t a.annotations site)
  | _, _ => .ok []

/-- The entries that the task adds after the diagnostics of an analysis. -/
def taskEntries (task : Task) (a : Analysis) (path : String) : List Log.Entry :=
  match task, a.tree with
  | .check, some _ => [checkedEntry a path]
  | _, _ => []

/-- Writes what the task asks for about an analysis of the event file. -/
def writeAnalysis (s : Surroundings) (i : Invocation) (a : Analysis) : Except RunError Outcome := do
  let shown ← diagnosticEntries a s
  let lines ← taskLines i.task a s.nesting
  return {
    exitCode := exitCode a
    output := unlines lines
    errors := Log.render (a.entries ++ shown ++ taskEntries i.task a i.entry)
      (some i.options.logSettings) s.time }

/-- Performs a task that analyses the event file. -/
def analyzeAndWrite (s : Surroundings) (mode : Mode) (i : Invocation) : Except RunError Outcome :=
  match analyzeFile s.files mode i.entry with
  | .error (.internal e) =>
    .ok { exitCode := 1
          errors := Log.render [.error e.format] (some i.options.logSettings) s.time }
  | .error (.numberTooLong digits) => .error (.numberTooLong digits)
  | .ok a => writeAnalysis s i a

/-- The lines of some events, the first of which stands at the given depth.  What is inside a scope
is indented by one step more. -/
def eventLines (depth : Nat) : List Event → List String
  | [] => []
  | e :: rest =>
    match e.action with
    | .enter .. => (Outline.indentation depth ++ e.action.text) :: eventLines (depth + 1) rest
    | .mention .. => (Outline.indentation depth ++ e.action.text) :: eventLines depth rest
    | .exit => (Outline.indentation (depth - 1) ++ e.action.text) :: eventLines (depth - 1) rest

/-- The lines of an event stream: its headers and its events. -/
def streamLines (s : EventStream) : List String :=
  (s.unitName.map fun value => HeaderKey.unit.keyword ++ " " ++ value).toList ++
    (s.source.map fun value => HeaderKey.source.keyword ++ " " ++ value).toList ++
    eventLines 0 s.events

/-- The line about a fault in the event file at a path. -/
def syntaxErrorLine (path : String) (e : SyntaxError) : String :=
  (Path.ofText path).text ++ ":" ++ toString e.line ++ ":" ++ toString e.column
    ++ ": error: syntax: " ++ e.fault.message

/-- Writes the events of the file. -/
def writeEvents (s : Surroundings) (i : Invocation) : Except RunError Outcome :=
  let printed entries :=
    Log.render (loadingEntry i.entry :: entries) (some i.options.logSettings) s.time
  match EventStream.load s.files i.entry with
  | .ok stream =>
    .ok { exitCode := 0, output := unlines (streamLines stream), errors := printed [] }
  | .error (.unreadable fault) =>
    .ok { exitCode := 1, errors := printed [.error ("error: " ++ fault.message i.entry)] }
  | .error (.unread (.malformed e)) =>
    .ok { exitCode := 1, errors := printed [.error (syntaxErrorLine i.entry e)] }
  | .error (.unread (.numberTooLong digits)) => .error (.numberTooLong digits)

/-- The mode of a run: the one that the options choose, or else the one that the surroundings
name. -/
def runMode (s : Surroundings) (o : Options) : Except String Mode :=
  match o.mode with
  | some m => .ok m
  | none => namedMode s.defaultMode

/-- Performs a task. -/
def perform (s : Surroundings) (i : Invocation) : Except RunError Outcome :=
  match runMode s i.options with
  | .error message => .ok { exitCode := 2, errors := message ++ "\n" }
  | .ok mode =>
    match i.task with
    | .events => writeEvents s i
    | .check | .tree | .sites => analyzeAndWrite s mode i

/-- Runs the command with the given arguments. -/
def run (s : Surroundings) (args : List String) : Except RunError Outcome :=
  match readArguments args with
  | .perform i => perform s i
  | .help => .ok { exitCode := 0 }
  | .misuse => .ok { exitCode := 2 }

/-- The paths of the files that a run with the given arguments reads: that of the event file and,
once the event file is at hand, that of the source file which it names. -/
def wantedPaths (files : FileSource) (args : List String) : List String :=
  match readArguments args with
  | .perform i =>
    (Path.ofText i.entry).text ::
      match EventStream.load files i.entry with
      | .ok stream => (stream.source.map fun source => (Path.ofText source).text).toList
      | .error _ => []
  | .help | .misuse => []

end TargetScope.Command
