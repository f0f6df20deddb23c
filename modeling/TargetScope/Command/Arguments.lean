import TargetScope.Mode
import TargetScope.Text.DecimalDigit

/-!
# Command-line arguments

A command line holds switches, then the name of a task, then the path of an event file.  A switch
has a letter and a word.  Letters may share one hyphen, words may be cut short as long as one word
alone fits, and a value may follow its switch behind an equals sign, directly behind the letter,
or as an argument of its own.  An equals sign behind the first letter of an argument says nothing
more: what stands behind it is read as if it stood directly behind the letter.  Behind the task the
only switch is the one that asks for help; two hyphens alone say that no switch follows.
-/

namespace TargetScope.Command

open Text

/-- The switches. -/
inductive Switch where
  /-- Asks how the command is used. -/
  | help
  /-- Asks for more about the progress; may be repeated. -/
  | verbose
  /-- Asks for the time and the level before each message. -/
  | log
  /-- Chooses the compatibility mode. -/
  | mode
deriving DecidableEq, Repr

namespace Switch

/-- All switches. -/
def all : List Switch := [help, verbose, log, mode]

/-- The letter of a switch. -/
def letter : Switch → Char
  | help => 'h'
  | verbose => 'v'
  | log => 'l'
  | mode => 'm'

/-- The word of a switch. -/
def word : Switch → List Char
  | help => ['h', 'e', 'l', 'p']
  | verbose => ['v', 'e', 'r', 'b', 'o', 's', 'e']
  | log => ['l', 'o', 'g']
  | mode => ['m', 'o', 'd', 'e']

end Switch

/-- How an argument reads by itself. -/
inductive Token where
  /-- An argument that is no switch. -/
  | plain
  /-- A switch that is not known. -/
  | unknown
  /-- The beginning of more than one word. -/
  | ambiguous
  /-- A switch given by its word, with the value behind the equals sign. -/
  | long (switch : Switch) (value : Option (List Char))
  /-- A switch given by its letter, with what follows the letter or the equals sign behind it. -/
  | short (switch : Switch) (tail : Option (List Char))
deriving DecidableEq, Repr

/-- The text without one line feed at its end. -/
def dropFinalNewline (text : List Char) : List Char :=
  if text.getLast? = some '\n' then text.dropLast else text

/-- What follows a hyphen reads as a number: digits, or a point and digits with or without digits
before it.  A line feed at the end does not matter. -/
def isUnsignedNumber (text : List Char) : Bool :=
  let text := dropFinalNewline text
  match text.dropWhile isDecimalDigit with
  | [] => text ≠ []
  | '.' :: fraction => fraction ≠ [] && fraction.all isDecimalDigit
  | _ => false

/-- How an argument that begins with a hyphen reads if no switch fits: negative numbers and texts
with a blank are plain. -/
def plainOrUnknown (rest : List Char) : Token :=
  if isUnsignedNumber rest || rest.contains ' ' then .plain else .unknown

namespace Token

/-- What follows the first letter of an argument: nothing, or the text behind the letter or behind
the equals sign that follows the letter. -/
def tailOf : List Char → Option (List Char)
  | [] => none
  | '=' :: tail => some tail
  | tail => some tail

/-- How an argument reads where the given switches are known. -/
def read (known : List Switch) : List Char → Token
  | '-' :: '-' :: rest =>
    let name := rest.takeWhile (· ≠ '=')
    let value := match rest.dropWhile (· ≠ '=') with
      | [] => none
      | _ :: value => some value
    match known.find? (fun s => s.word = name) with
    | some s => .long s value
    | none =>
      match known.filter (fun s => name.isPrefixOf s.word) with
      | [] => plainOrUnknown ('-' :: rest)
      | [s] => .long s value
      | _ => .ambiguous
  | '-' :: c :: rest =>
    match known.find? (fun s => s.letter = c) with
    | some s => .short s (tailOf rest)
    | none => plainOrUnknown (c :: rest)
  | _ => .plain

end Token

/-- What a switch sets. -/
inductive Setting where
  /-- Help is asked for. -/
  | help
  /-- One step more about the progress. -/
  | verbose
  /-- The time and the level before each message. -/
  | log
  /-- The mode of the given name; without a name, the mode named by the next argument. -/
  | mode (name : Option String)
deriving DecidableEq, Repr

/-- The setting of a switch without a value. -/
def Switch.setting : Switch → Setting
  | help => .help
  | verbose => .verbose
  | log => .log
  | mode => .mode none

/-- What a switch and the letters that share its hyphen set.  Behind the letter that chooses the
mode stands the name of the mode; behind any other letter stands the letter of one more switch. -/
def readLetters (known : List Switch) : Switch → List Char → Option (List Setting)
  | .mode, [] => some [.mode none]
  | .mode, name => some [.mode (some (String.ofList name))]
  | s, [] => some [s.setting]
  | s, c :: rest =>
    match known.find? (fun s => s.letter = c) with
    | none => none
    | some next => (readLetters known next rest).map (s.setting :: ·)

/-- What a switch given by its letter sets.  Behind an equals sign there is always a value, be it
empty, and a switch that takes none does not accept an empty one. -/
def readShort (known : List Switch) : Switch → Option (List Char) → Option (List Setting)
  | s, none => some [s.setting]
  | .mode, some [] => some [.mode (some "")]
  | _, some [] => none
  | s, some tail => readLetters known s tail

/-- What a switch given by its word sets.  A value behind a switch that takes none is not
accepted. -/
def readLong : Switch → Option (List Char) → Option (List Setting)
  | s, none => some [s.setting]
  | .mode, some name => some [.mode (some (String.ofList name))]
  | _, some _ => none

/-- The tasks. -/
inductive Task where
  /-- Resolve the use sites and report the diagnostics. -/
  | check
  /-- Write the events of the file. -/
  | events
  /-- Write the outline of the scope tree. -/
  | tree
  /-- Write the use sites with their owners. -/
  | sites
deriving DecidableEq, Repr

/-- The names of the tasks. -/
def Task.names : List (String × Task) :=
  [("check", .check), ("analyze", .check), ("events", .events), ("tree", .tree), ("sites", .sites)]

/-- What the switches before the task set. -/
structure Options where
  /-- How often more about the progress is asked for. -/
  verbosity : Nat := 0
  /-- The time and the level stand before each message. -/
  rich : Bool := false
  /-- The compatibility mode. -/
  mode : Option Mode := none
deriving DecidableEq, Repr

/-- A task with all that it needs to know. -/
structure Invocation where
  /-- The task. -/
  task : Task
  /-- The path of the event file. -/
  entry : String
  /-- The options. -/
  options : Options := {}
deriving DecidableEq, Repr

/-- What a command line asks for. -/
inductive Request where
  /-- A task. -/
  | perform (invocation : Invocation)
  /-- An explanation of how the command is used. -/
  | help
  /-- Nothing that could be understood. -/
  | misuse
deriving DecidableEq, Repr

/-- The path among the arguments behind a task: the one argument that is no switch.  The path
found so far is `entry`, and `extra` says that there is an argument too many. -/
def readEntry (finish : String → Request) (entry : Option String) (extra : Bool) :
    List String → Request
  | [] =>
    match entry, extra with
    | some e, false => finish e
    | _, _ => .misuse
  | arg :: rest =>
    if arg = "--" then
      match entry, rest, extra with
      | none, [e], false => finish e
      | some e, [], false => finish e
      | _, _, _ => .misuse
    else
      match Token.read [.help] arg.toList with
      | .plain =>
        if entry.isNone then readEntry finish (some arg) extra rest
        else readEntry finish entry true rest
      | .unknown => readEntry finish entry true rest
      | .ambiguous => .misuse
      | .long s value => if (readLong s value).isSome then .help else .misuse
      | .short s tail => if (readShort [.help] s tail).isSome then .help else .misuse

/-- The settings with the name of the mode filled in from the next argument where it is still
missing, and the arguments that are left then. -/
def fillMode (settings : List Setting) (rest : List String) : Option (List Setting × List String) :=
  if settings.getLast? = some (.mode none) then
    match rest with
    | [] => none
    | name :: rest =>
      if name ≠ "--" ∧ Token.read Switch.all name.toList = .plain then
        some (settings.dropLast ++ [.mode (some name)], rest)
      else none
  else some (settings, rest)

/-- The options after some settings, or the request in which they end: one for help, or none that
could be understood where a name is not that of a mode.  Two hyphens in the place of the name take
the choice of a mode back. -/
def applySettings : Options → List Setting → Except Request Options
  | o, [] => .ok o
  | _, .help :: _ => .error .help
  | o, .verbose :: rest => applySettings { o with verbosity := o.verbosity + 1 } rest
  | o, .log :: rest => applySettings { o with rich := true } rest
  | o, .mode name :: rest =>
    if name = some "--" then applySettings { o with mode := none } rest
    else
      match name.bind Mode.ofText? with
      | some m => applySettings { o with mode := some m } rest
      | none => .error .misuse

/-- What stands at the front of a command line, before the arguments `rest`. -/
inductive Front where
  /-- A switch that is not known. -/
  | unknown
  /-- Switches, after which the options are as given. -/
  | options (options : Options) (rest : List String)
  /-- An argument with which the request is decided. -/
  | decided (request : Request)

/-- The front of a command line that begins with switches of the given settings; without settings
the switches could not be understood. -/
def Front.ofSettings (o : Options) (rest : List String) : Option (List Setting) → Front
  | none => .decided .misuse
  | some settings =>
    match fillMode settings rest with
    | none => .decided .misuse
    | some (settings, rest) =>
      match applySettings o settings with
      | .ok o => .options o rest
      | .error request => .decided request

/-- Reads the argument `arg` that stands before the task or is the task.  `extra` says that there
was a switch that is not known. -/
def readFront (o : Options) (extra : Bool) (arg : String) (rest : List String) : Front :=
  if arg = "--" then .decided .misuse
  else
    match Token.read Switch.all arg.toList with
    | .plain =>
      match Task.names.lookup arg with
      | some task => .decided (readEntry (fun entry => .perform ⟨task, entry, o⟩) none extra rest)
      | none => .decided .misuse
    | .unknown => .unknown
    | .ambiguous => .decided .misuse
    | .long s value => .ofSettings o rest (readLong s value)
    | .short s tail => .ofSettings o rest (readShort Switch.all s tail)

/-- The request of at most `fuel` arguments, which go on after the given options. -/
def readSwitches : (fuel : Nat) → Options → (extra : Bool) → List String → Request
  | 0, _, _, _ => .misuse
  | _, _, _, [] => .misuse
  | fuel + 1, o, extra, arg :: rest =>
    match readFront o extra arg rest with
    | .unknown => readSwitches fuel o true rest
    | .options o rest => readSwitches fuel o extra rest
    | .decided request => request

/-- Reads a command line.  An argument that begins more than one word spoils it, wherever it stands
before two hyphens alone. -/
def readArguments (args : List String) : Request :=
  let switches := args.takeWhile (· ≠ "--")
  if switches.any fun a => Token.read Switch.all a.toList = .ambiguous then .misuse
  else readSwitches args.length {} false args

end TargetScope.Command
