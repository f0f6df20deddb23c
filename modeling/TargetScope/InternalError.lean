import TargetScope.Position
import TargetScope.Text.BracketedCode

/-!
# Internal errors

A stage of the resolution that is given a tree or a result which the stage before it never produces
stops with an internal error.  Mistakes in the events are diagnostics, never internal errors.
-/

namespace TargetScope

/-- The expectations that a stage can find broken. -/
inductive Breach where
  /-- A transparent scope has no block scope around it. -/
  | noEnclosingBlock (scope : String)
  /-- The owner of an outer declaration is not settled. -/
  | unsettled (name scope : String)
  /-- A use site or a scope refers to a scope that is not in the tree. -/
  | scopeOutOfRange (index : Int)
  /-- A use site has not been resolved. -/
  | unresolved (name : String)
  /-- The owner of a name is a scope that is not in the tree. -/
  | ownerOutOfRange (index : Nat)
  /-- Any other expectation, in the words of the stage that found it broken. -/
  | other (message : String)
deriving DecidableEq, Repr

/-- The message of a breach, with its code in brackets where it has one. -/
def Breach.message : Breach → String
  | noEnclosingBlock scope => "[ICE-0101] " ++ scope ++ " has no enclosing block scope"
  | unsettled name scope =>
    "[ICE-0102] outer declaration of '" ++ name ++ "' in " ++ scope
      ++ " reached resolution unpromoted"
  | scopeOutOfRange index => "[ICE-0103] scope index " ++ toString index ++ " out of range"
  | unresolved name => "[ICE-0200] use site '" ++ name ++ "' has no resolution result"
  | ownerOutOfRange index => "owner index " ++ toString index ++ " out of range"
  | other message => message

/-- The place in the source at which an expectation was found broken. -/
structure SourceLocation where
  /-- The source file. -/
  filename : Option String := none
  /-- The place in that file. -/
  position : Option Position := none
deriving DecidableEq, Repr

/-- The text of a location in front of a message.  Without a file, or with a file of empty name,
there is none. -/
def SourceLocation.lead (l : SourceLocation) : String :=
  match l.filename with
  | none => ""
  | some filename =>
    if filename = "" then ""
    else
      match l.position with
      | none => filename ++ ": "
      | some p => filename ++ ":" ++ p.text ++ ": "

/-- A broken expectation and the place where it was found broken. -/
structure InternalError where
  /-- What is wrong. -/
  breach : Breach
  /-- The place in the source. -/
  location : Option SourceLocation := none
deriving DecidableEq, Repr

namespace InternalError

/-- The code of a message that carries none. -/
def defaultCode : String := "ICE-9999"

/-- The code in brackets that a message carries, of the family of internal errors. -/
def codeIn? (message : String) : Option String :=
  Text.findCode? (fun a b c => a = 'I' && b = 'C' && c = 'E') message.toList

/-- The message of an error. -/
def message (e : InternalError) : String :=
  e.breach.message

/-- The code of an error: the one that its message carries, or the default. -/
def code (e : InternalError) : String :=
  (codeIn? e.message).getD defaultCode

/-- The line that is printed for an error. -/
def format (e : InternalError) : String :=
  let lead := match e.location with
    | some l => l.lead
    | none => ""
  let message := match codeIn? e.message with
    | some _ => e.message
    | none => "[" ++ defaultCode ++ "] " ++ e.message
  lead ++ "internal resolver error: " ++ message

end InternalError

end TargetScope
