import TargetScope.Position

/-!
# What can be wrong with an event file

Each fault of an event file has a code and a message.  A fault is found in a word of the file and
reported at the line and the column where that word begins.
-/

namespace TargetScope

/-- The two header lines of an event file. -/
inductive HeaderKey where
  /-- The name of the unit. -/
  | unit
  /-- The source file to which the positions refer. -/
  | source
deriving DecidableEq, Repr

/-- The word that begins a header line. -/
def HeaderKey.keyword : HeaderKey → String
  | unit => "unit"
  | source => "source"

/-- The header for which a word stands. -/
def HeaderKey.ofKeyword? (word : String) : Option HeaderKey :=
  if word = "unit" then some unit else if word = "source" then some source else none

@[simp] theorem HeaderKey.ofKeyword?_keyword (k : HeaderKey) : ofKeyword? k.keyword = some k := by
  cases k <;> decide

/-- The faults of a line of an event file. -/
inductive SyntaxFault where
  /-- The line begins with a word that stands for nothing. -/
  | unknownDirective (word : String)
  /-- A scope is entered without a kind. -/
  | missingKind
  /-- No name is mentioned. -/
  | missingName (directive : String)
  /-- A header has no value. -/
  | missingValue (key : HeaderKey)
  /-- A word stands for no kind of scope. -/
  | unknownKind (word : String)
  /-- A word begins like a position but is none. -/
  | malformedPosition (word : String)
  /-- The line or the column of a position is zero. -/
  | positionOutOfRange (word : String)
  /-- The line goes on after its last part. -/
  | trailingWord (word : String)
  /-- The label of a scope is no dotted name. -/
  | invalidLabel (word : String)
  /-- The name that is mentioned is no identifier. -/
  | invalidName (word : String)
  /-- The name of the unit is no dotted name. -/
  | invalidUnitName (word : String)
  /-- A header stands after an event. -/
  | misplacedHeader (key : HeaderKey)
  /-- A header is given twice. -/
  | duplicateHeader (key : HeaderKey)
deriving DecidableEq, Repr

namespace SyntaxFault

/-- The code of a fault. -/
def code : SyntaxFault → String
  | unknownDirective _ => "EVT-0010"
  | missingKind | missingName _ | missingValue _ => "EVT-0020"
  | unknownKind _ => "EVT-0030"
  | malformedPosition _ | positionOutOfRange _ => "EVT-0040"
  | trailingWord _ => "EVT-0050"
  | invalidLabel _ | invalidName _ | invalidUnitName _ => "EVT-0060"
  | misplacedHeader _ | duplicateHeader _ => "EVT-0070"

/-- The message of a fault without its code. -/
def detail : SyntaxFault → String
  | unknownDirective word => "unknown directive '" ++ word ++ "'"
  | missingKind => "'enter' requires a scope kind"
  | missingName directive => "'" ++ directive ++ "' requires a name"
  | missingValue key => "'" ++ key.keyword ++ "' requires a value"
  | unknownKind word => "unknown scope kind '" ++ word ++ "'"
  | malformedPosition word => "malformed position '" ++ word ++ "' (expected @LINE:COL)"
  | positionOutOfRange word => "position '" ++ word ++ "' out of range"
  | trailingWord word => "unexpected '" ++ word ++ "'"
  | invalidLabel word => "invalid scope label '" ++ word ++ "'"
  | invalidName word => "invalid name '" ++ word ++ "'"
  | invalidUnitName word => "invalid unit name '" ++ word ++ "'"
  | misplacedHeader key => "'" ++ key.keyword ++ "' must appear before the first event"
  | duplicateHeader key => "duplicate '" ++ key.keyword ++ "' header"

/-- The message of a fault: its code in brackets, and what is wrong. -/
def message (f : SyntaxFault) : String :=
  "[" ++ f.code ++ "] " ++ f.detail

end SyntaxFault

/-- A fault and the place where it was found. -/
structure SyntaxError where
  /-- What is wrong. -/
  fault : SyntaxFault
  /-- The line of the event file, counted from one. -/
  line : Nat
  /-- The column of the word at fault, counted from one. -/
  column : Nat
deriving DecidableEq, Repr

/-- The reasons why an event file cannot be read. -/
inductive ReadError where
  /-- The file has a fault. -/
  | malformed (error : SyntaxError)
  /-- A number in a position has more digits than any number may have. -/
  | numberTooLong (digits : Nat)
deriving DecidableEq, Repr

/-- The message of a number with too many digits. -/
def numberTooLongMessage (digits : Nat) : String :=
  "Exceeds the limit (" ++ toString maxDigits ++ " digits) for integer string conversion: "
    ++ "value has " ++ toString digits ++ " digits; "
    ++ "use sys.set_int_max_str_digits() to increase the limit"

end TargetScope
